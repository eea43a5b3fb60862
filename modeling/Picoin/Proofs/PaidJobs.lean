import Picoin.Proofs.ReserveSolvency
import Picoin.Proofs.SupplySchedule

/-!
# Who is paid for a job

Every transition of a job takes a worker, a result and a proof, and overwrites those of the row. A
payment goes to the worker of the row when the job was accepted, once, and within the reward; this
is the worker that the job was assigned to, unless a later transition names one, and likewise the
result is the verified one, unless a later transition gives one.

* **`JobMove`** — what one call does to the row of a job;
* **`JobHistory`** — what the row of a job says of the calls before;
* **`paid_for_accepted_work`** — a payment in any run of the market.
-/

namespace Picoin

open Outcome Run Decimal

/-! ## Rounding -/

/-- The rounded quotient is the quotient or one more. -/
theorem roundHalfEven_mem (n : ℤ) (d : ℕ) :
    n / d ≤ roundHalfEven n d ∧ roundHalfEven n d ≤ n / d + 1 := by
  unfold roundHalfEven
  dsimp only
  split
  · omega
  · split <;> omega

/-- Rounding keeps the order. -/
theorem roundHalfEven_mono {m n : ℤ} (h : m ≤ n) {d : ℕ} (hd : 0 < d) :
    roundHalfEven m d ≤ roundHalfEven n d := by
  have hd' : (0 : ℤ) < d := by exact_mod_cast hd
  have hquotient : m / d ≤ n / d := Int.ediv_le_ediv hd' h
  rcases hquotient.lt_or_eq with hless | hsame
  · have hm := (roundHalfEven_mem m d).2
    have hn := (roundHalfEven_mem n d).1
    omega
  · -- within one quotient the remainders are in order
    have hremainder : m % d ≤ n % d := by
      have hm := Int.emod_add_mul_ediv m d
      have hn := Int.emod_add_mul_ediv n d
      rw [hsame] at hm
      omega
    unfold roundHalfEven
    dsimp only
    rw [hsame]
    split_ifs <;> omega

/-! ## What one call does to a job -/

/-- The units and the payout of a transition: an acceptance sets both, within the limits. -/
def UnitsSet (job : ScienceJobRow) (status : JobStatus) (units payout : ℤ) : Prop :=
  if status = .accepted then
    0 < units ∧ units ≤ job.maxComputeUnits ∧ payout = payoutAmount job units
  else units = job.computeUnitsUsed ∧ payout = job.payoutAmount

/-- A transition writes what it is given, and keeps what it is not given. -/
inductive JobMove (jobId : String) :
    Instant × MarketCall → Option ScienceJobRow → Option ScienceJobRow → Prop
  | kept {call : Instant × MarketCall} {row : Option ScienceJobRow} : JobMove jobId call row row
  | created {call : Instant × MarketCall} {job : ScienceJobRow} (hstatus : job.status = .created)
      (hunpaid : job.paid = false) : JobMove jobId call none (some job)
  | moved {now : Instant} {text : String} {args : TransitionArgs} {job : ScienceJobRow}
      {status : JobStatus} {worker result proof : Option String} {units payout : ℤ}
      (hnext : status ∈ job.status.allowed)
      (hworker : textOr args.workerAddress "" = "" → worker = job.workerAddress)
      (hresult : args.resultHash = none → result = job.resultHash)
      (hproof : args.proofHash = none → proof = job.proofHash)
      (hunits : UnitsSet job status units payout) :
      JobMove jobId (now, .transition jobId text args) (some job)
        (some (job.transition status worker result proof units payout))
  | paid {now : Instant} {job : ScienceJobRow} (haccepted : job.status = .accepted)
      (hunpaid : job.paid = false) :
      JobMove jobId (now, .pay jobId) (some job) (some (job.pay now job.payoutAmount))

/-- The next status is an allowed one. -/
theorem next?_mem {status next : JobStatus} {text : String} (h : status.next? text = some next) :
    next ∈ status.allowed := List.mem_of_find?_eq_some h

/-- An accepted job has units within its maximum. -/
theorem checkTransitionUnits_eq_ok {job : ScienceJobRow} {args : TransitionArgs} {u : Unit}
    (h : checkTransitionUnits job .accepted args = .ok u) {units : ℤ}
    (hunits : cleanNonNegative (args.computeUnitsUsed.getD 0) "compute_units_used" = .ok units) :
    0 < units ∧ units ≤ job.maxComputeUnits := by
  unfold checkTransitionUnits at h
  rw [if_pos rfl] at h
  obtain ⟨units', hunits', h⟩ := bind_eq_ok.mp h
  rw [hunits] at hunits'
  cases hunits'
  split at h
  · cases h
  · split at h
    · cases h
    · constructor <;> omega

/-- So it is with a transition that passes. -/
theorem validateScienceTransition_units {mc : MarketConfig} {job : ScienceJobRow} {text : String}
    {args : TransitionArgs} {status : JobStatus}
    (h : validateScienceTransition mc job text args = .ok status) :
    ∃ u, checkTransitionUnits job status args = .ok u := by
  unfold validateScienceTransition at h
  split at h
  · cases h
  obtain ⟨_, -, h⟩ := bind_eq_ok.mp h
  obtain ⟨_, -, h⟩ := bind_eq_ok.mp h
  obtain ⟨u, hu, h⟩ := bind_eq_ok.mp h
  cases h
  exact ⟨u, hu⟩

/-- A hash that is not given is not read. -/
theorem cleanOptionalHash_none {hash : Option String} {field : String} {clean : Option String}
    (h : cleanOptionalHash hash field = .ok clean) (recorded : Option String) (hnone : hash = none) :
    clean.or recorded = recorded := by
  subst hnone
  cases h
  rfl

/-- The row of a job after a transition. -/
theorem transitionScienceJob_row {mc : MarketConfig} {now : Instant} {sci sci' : ScienceTables}
    {jobId text : String} {args : TransitionArgs}
    (h : transitionScienceJob mc now sci jobId text args = .ok sci') :
    ∃ job status worker result proof units payout, sci.jobs.find? jobId = some job ∧
      status ∈ job.status.allowed ∧
      (textOr args.workerAddress "" = "" → worker = job.workerAddress) ∧
      (args.resultHash = none → result = job.resultHash) ∧
      (args.proofHash = none → proof = job.proofHash) ∧
      UnitsSet job status units payout ∧
      sci'.jobs = sci.jobs.modify jobId fun _ =>
        job.transition status worker result proof units payout := by
  obtain ⟨job, status, worker, result, proof, units, payout, hjob, hstatus, hworker, hresult, hproof,
    hunits, hwritten⟩ := transitionScienceJob_inv h
  refine ⟨job, status, worker, _, _, units, payout, hjob,
    next?_mem (validateScienceTransition_eq_ok hstatus), hworker, cleanOptionalHash_none hresult _,
    cleanOptionalHash_none hproof _, ?_, ?_⟩
  · -- an acceptance has checked the units against the limits
    unfold UnitsSet
    split at hunits
    · next haccepted =>
      subst haccepted
      obtain ⟨u, hu⟩ := validateScienceTransition_units hstatus
      obtain ⟨hpositive, hmax⟩ := checkTransitionUnits_eq_ok hu hunits.1
      rw [if_pos rfl]
      exact ⟨hpositive, hmax, hunits.2⟩
    · next hother =>
      rw [if_neg hother]
      exact hunits
  · rw [hwritten]
    split
    · exact releaseScienceJobBudget_jobs _ _ _
    · rfl

/-- A payment is of an accepted, unpaid job, and goes from the reserve to the worker of its row. -/
theorem payScienceWorker_row {mc : MarketConfig} {now : Instant} {l l' : Ledger}
    {sci sci' : ScienceTables} {jobId : String}
    (h : payScienceWorker mc now l sci jobId = .ok (l', sci')) :
    ∃ job, sci.jobs.find? jobId = some job ∧ job.status = .accepted ∧ job.paid = false ∧
      sci'.jobs = sci.jobs.modify jobId (ScienceJobRow.pay now job.payoutAmount) ∧
      Posts l l'
        [workerPayment now jobId scienceReserveAccountId "science_reserve" (-job.payoutAmount)
          "science worker payment debit",
        workerPayment now jobId (textOr job.workerAddress "") "science_worker" job.payoutAmount
          "science worker payment"] := by
  obtain ⟨job, l₁, hjob, haccepted, hunpaid, hdebit, hcredit, rfl⟩ := payScienceWorker_inv h
  exact ⟨job, hjob, haccepted, hunpaid, rfl,
    (applyScienceLedgerEntry_posts hdebit).trans (applyScienceLedgerEntry_posts hcredit)⟩

/-- A changed row of a job, and the rows of the other jobs. -/
theorem JobMove.modify {call : Instant × MarketCall} {jobs : Sql.Table String ScienceJobRow}
    {changedId jobId : String} {job : ScienceJobRow} {f : ScienceJobRow → ScienceJobRow}
    (hjob : jobs.find? changedId = some job)
    (hmove : changedId = jobId → JobMove jobId call (some job) (some (f job))) :
    JobMove jobId call (jobs.find? jobId) ((jobs.modify changedId f).find? jobId) := by
  by_cases heq : jobId = changedId
  · subst heq
    rw [Sql.Table.find?_modify, if_pos rfl, hjob]
    exact hmove rfl
  · rw [Sql.Table.find?_modify_ne _ _ heq]
    exact .kept

/-- A call moves the job as it is allowed to, or leaves it. -/
theorem jobMove_step (mc : MarketConfig) (s : MarketState) (call : Instant × MarketCall)
    (jobId : String) :
    JobMove jobId call (s.science.jobs.find? jobId) ((s.step mc call).science.jobs.find? jobId) := by
  obtain ⟨now, call⟩ := call
  refine attempt_of (P := fun s' : MarketState => JobMove jobId (now, call) (s.science.jobs.find? jobId)
    (s'.science.jobs.find? jobId)) .kept fun s' h => ?_
  cases call with
  | recordReserve blockHeight blockReward =>
    obtain ⟨⟨ledger, science⟩, hrecord, h⟩ := bind_eq_ok.mp h
    cases h
    obtain ⟨hjobs, -⟩ := recordReserve_eq_ok hrecord
    show JobMove _ _ _ (science.jobs.find? jobId)
    rw [hjobs]
    exact .kept
  | createJob requester jobType metadataHash storagePointer a b c d createdId =>
    obtain ⟨science, hcreate, h⟩ := bind_eq_ok.mp h
    cases h
    obtain ⟨job, -, -, hstatus, hunpaid, -, -, -, hjobs⟩ := createScienceJob_eq_ok hcreate
    obtain ⟨hnone, hjobs⟩ := Sql.Table.insert?_eq_some_iff.mp hjobs
    show JobMove _ _ _ (science.jobs.find? jobId)
    rw [hjobs, Sql.Table.find?_upsert]
    split
    · -- the id was free
      next heq =>
      rw [heq, hnone]
      exact .created hstatus hunpaid
    · exact .kept
  | transition changedId text args =>
    obtain ⟨science, htransition, h⟩ := bind_eq_ok.mp h
    cases h
    obtain ⟨job, status, worker, result, proof, units, payout, hjob, hnext, hworker, hresult,
      hproof, hunits, hjobs⟩ := transitionScienceJob_row htransition
    show JobMove _ _ _ (science.jobs.find? jobId)
    rw [hjobs]
    refine JobMove.modify hjob ?_
    rintro rfl
    exact .moved hnext hworker hresult hproof hunits
  | pay paidId =>
    obtain ⟨⟨ledger, science⟩, hpay, h⟩ := bind_eq_ok.mp h
    cases h
    obtain ⟨job, hjob, haccepted, hunpaid, hjobs, -⟩ := payScienceWorker_row hpay
    show JobMove _ _ _ (science.jobs.find? jobId)
    rw [hjobs]
    refine JobMove.modify hjob ?_
    rintro rfl
    exact .paid haccepted hunpaid
  | other ledger stakeAccounts reserveGovernance =>
    cases h
    exact .kept

/-! ## What a row says of the calls before -/

/-- How far a job has come on the way to its payment. -/
def JobStatus.stage : JobStatus → ℕ
  | .queued => 1
  | .assigned => 2
  | .committed => 3
  | .submitted => 4
  | .verified => 5
  | .accepted => 6
  | .paid => 7
  | .created | .rejected | .disputed | .expired => 0

/-- A job goes one stage on, or ends. -/
theorem JobStatus.stage_of_allowed {current next : JobStatus} (h : next ∈ current.allowed) :
    next.stage = current.stage + 1 ∧ next.stage ≤ 6 ∨ next.stage = 0 := by
  revert h
  cases current <;> cases next <;> decide

/-- A stage has one status. -/
theorem JobStatus.eq_of_stage {a b : JobStatus} (h : a.stage = b.stage) (hpos : 1 ≤ b.stage) :
    a = b := by
  revert h hpos
  cases a <;> cases b <;> decide

/-- The state after the calls. -/
def marketAfter (mc : MarketConfig) (start : MarketState) (calls : List (Instant × MarketCall)) :
    MarketState := calls.foldl (MarketState.step mc) start

/-- No later transition of the job names a worker. -/
def NamesNoWorker (jobId : String) (calls : List (Instant × MarketCall)) : Prop :=
  ∀ now text args, (now, .transition jobId text args) ∈ calls → textOr args.workerAddress "" = ""

/-- No later transition of the job gives a result or a proof. -/
def GivesNoHashes (jobId : String) (calls : List (Instant × MarketCall)) : Prop :=
  ∀ now text args, (now, .transition jobId text args) ∈ calls →
    args.resultHash = none ∧ args.proofHash = none

section

variable (mc : MarketConfig) (start : MarketState) (jobId : String)

/-- One of the calls gave the job the status, with this row; the others came after it. -/
def BecameAt (status : JobStatus) (calls after : List (Instant × MarketCall))
    (row : ScienceJobRow) : Prop :=
  ∃ before call, calls = before ++ call :: after ∧
    (∀ old, (marketAfter mc start before).science.jobs.find? jobId = some old →
      old.status ≠ status) ∧
    (marketAfter mc start (before ++ [call])).science.jobs.find? jobId = some row ∧
    row.status = status

/-- What a row of the job says of the calls that led to it. -/
structure JobHistory (calls : List (Instant × MarketCall)) (job : ScienceJobRow) : Prop where
  assigned : 2 ≤ job.status.stage → ∃ after row,
    BecameAt mc start jobId .assigned calls after row ∧
      (NamesNoWorker jobId after → job.workerAddress = row.workerAddress)
  verified : 5 ≤ job.status.stage → ∃ after row,
    BecameAt mc start jobId .verified calls after row ∧
      (GivesNoHashes jobId after → job.resultHash = row.resultHash ∧ job.proofHash = row.proofHash)
  accepted : 6 ≤ job.status.stage → ∃ after row,
    BecameAt mc start jobId .accepted calls after row ∧ job.workerAddress = row.workerAddress ∧
      job.resultHash = row.resultHash ∧ job.proofHash = row.proofHash
  payout : 6 ≤ job.status.stage → 0 < job.computeUnitsUsed ∧
    job.computeUnitsUsed ≤ job.maxComputeUnits ∧
    job.payoutAmount = payoutAmount job job.computeUnitsUsed
  paid : job.paid = true → job.status = .paid

variable {mc start jobId} {calls : List (Instant × MarketCall)}

/-- It holds of a shorter list of calls. -/
theorem NamesNoWorker.before {after : List (Instant × MarketCall)} {call : Instant × MarketCall}
    (h : NamesNoWorker jobId (after ++ [call])) : NamesNoWorker jobId after :=
  fun now text args hmem => h now text args (List.mem_append_left _ hmem)

/-- It holds of a shorter list of calls. -/
theorem GivesNoHashes.before {after : List (Instant × MarketCall)} {call : Instant × MarketCall}
    (h : GivesNoHashes jobId (after ++ [call])) : GivesNoHashes jobId after :=
  fun now text args hmem => h now text args (List.mem_append_left _ hmem)

/-- A status that was reached was reached before the next call, too. -/
theorem BecameAt.extend {status : JobStatus} {after : List (Instant × MarketCall)}
    {row : ScienceJobRow} (h : BecameAt mc start jobId status calls after row)
    (call : Instant × MarketCall) :
    BecameAt mc start jobId status (calls ++ [call]) (after ++ [call]) row := by
  obtain ⟨before, first, rfl, hrest⟩ := h
  exact ⟨before, first, by rw [List.append_assoc, List.cons_append], hrest⟩

/-- A status that is new was reached by the last call. -/
theorem BecameAt.last {status : JobStatus} {call : Instant × MarketCall} {old row : ScienceJobRow}
    (hold : (marketAfter mc start calls).science.jobs.find? jobId = some old)
    (hother : old.status ≠ status)
    (hrow : (marketAfter mc start (calls ++ [call])).science.jobs.find? jobId = some row)
    (hstatus : row.status = status) :
    BecameAt mc start jobId status (calls ++ [call]) [] row := by
  refine ⟨calls, call, rfl, fun old' hold' => ?_, hrow, hstatus⟩
  rw [hold] at hold'
  cases hold'
  exact hother

/-- The history of a row that a call leaves as it is. -/
theorem JobHistory.keep {job : ScienceJobRow} (h : JobHistory mc start jobId calls job)
    (call : Instant × MarketCall) : JobHistory mc start jobId (calls ++ [call]) job where
  assigned hstage := by
    obtain ⟨after, row, hbecame, hworker⟩ := h.assigned hstage
    exact ⟨_, row, hbecame.extend call, fun hnames => hworker hnames.before⟩
  verified hstage := by
    obtain ⟨after, row, hbecame, hhashes⟩ := h.verified hstage
    exact ⟨_, row, hbecame.extend call, fun hgives => hhashes hgives.before⟩
  accepted hstage := by
    obtain ⟨after, row, hbecame, hsame⟩ := h.accepted hstage
    exact ⟨_, row, hbecame.extend call, hsame⟩
  payout := h.payout
  paid := h.paid

/-- A created job has its history. -/
theorem JobHistory.created {job : ScienceJobRow} (hstatus : job.status = .created)
    (hunpaid : job.paid = false) : JobHistory mc start jobId calls job := by
  have hstage : job.status.stage = 0 := by rw [hstatus]; rfl
  exact ⟨fun h => absurd h (by omega), fun h => absurd h (by omega), fun h => absurd h (by omega),
    fun h => absurd h (by omega), fun h => by rw [hunpaid] at h; cases h⟩

/-- A transition goes one stage on, or ends the way to the payment. -/
theorem JobHistory.move {job : ScienceJobRow} (h : JobHistory mc start jobId calls job)
    (hjob : (marketAfter mc start calls).science.jobs.find? jobId = some job)
    {now : Instant} {text : String} {args : TransitionArgs} {status : JobStatus}
    {worker result proof : Option String} {units payout : ℤ}
    (hrow : (marketAfter mc start (calls ++ [(now, .transition jobId text args)])
      ).science.jobs.find? jobId = some (job.transition status worker result proof units payout))
    (hnext : status ∈ job.status.allowed)
    (hworker : textOr args.workerAddress "" = "" → worker = job.workerAddress)
    (hresult : args.resultHash = none → result = job.resultHash)
    (hproof : args.proofHash = none → proof = job.proofHash)
    (hunits : UnitsSet job status units payout) :
    JobHistory mc start jobId (calls ++ [(now, .transition jobId text args)])
      (job.transition status worker result proof units payout) := by
  have hstage := JobStatus.stage_of_allowed hnext
  -- a status of a new stage was not there before
  have hother : ∀ reached : JobStatus, status = reached → 1 ≤ reached.stage →
      job.status ≠ reached := by
    rintro reached rfl hreached heq
    rw [heq] at hstage
    omega
  refine ⟨fun hassigned => ?_, fun hverified => ?_, fun haccepted => ?_, fun haccepted => ?_,
    fun hpaid => ?_⟩
  · replace hassigned : 2 ≤ status.stage := hassigned
    by_cases hearlier : 2 ≤ job.status.stage
    · obtain ⟨after, row, hbecame, hsame⟩ := h.assigned hearlier
      refine ⟨_, row, hbecame.extend _, fun hnames => ?_⟩
      have hkeep := hnames now text args (List.mem_append_right _ (List.mem_singleton_self _))
      exact (hworker hkeep).trans (hsame hnames.before)
    · have hreached : status = .assigned :=
        JobStatus.eq_of_stage (show status.stage = 2 by omega) (by decide)
      exact ⟨[], _, .last hjob (hother _ hreached (by decide)) hrow hreached, fun _ => rfl⟩
  · replace hverified : 5 ≤ status.stage := hverified
    by_cases hearlier : 5 ≤ job.status.stage
    · obtain ⟨after, row, hbecame, hsame⟩ := h.verified hearlier
      refine ⟨_, row, hbecame.extend _, fun hgives => ?_⟩
      have hkeep := hgives now text args (List.mem_append_right _ (List.mem_singleton_self _))
      have hbefore := hsame hgives.before
      exact ⟨(hresult hkeep.1).trans hbefore.1, (hproof hkeep.2).trans hbefore.2⟩
    · have hreached : status = .verified :=
        JobStatus.eq_of_stage (show status.stage = 5 by omega) (by decide)
      exact ⟨[], _, .last hjob (hother _ hreached (by decide)) hrow hreached, fun _ => ⟨rfl, rfl⟩⟩
  · replace haccepted : 6 ≤ status.stage := haccepted
    have hreached : status = .accepted :=
      JobStatus.eq_of_stage (show status.stage = 6 by omega) (by decide)
    exact ⟨[], _, .last hjob (hother _ hreached (by decide)) hrow hreached, rfl, rfl, rfl⟩
  · replace haccepted : 6 ≤ status.stage := haccepted
    have hreached : status = .accepted :=
      JobStatus.eq_of_stage (show status.stage = 6 by omega) (by decide)
    rw [UnitsSet, if_pos hreached] at hunits
    exact hunits
  · -- a paid job goes nowhere
    have hpaid' : job.status = .paid := h.paid hpaid
    rw [hpaid'] at hnext
    cases hnext

/-- A payment keeps the history of an accepted job. -/
theorem JobHistory.pay {job : ScienceJobRow} (h : JobHistory mc start jobId calls job)
    (haccepted : job.status = .accepted) (now : Instant) (call : Instant × MarketCall) :
    JobHistory mc start jobId (calls ++ [call]) (job.pay now job.payoutAmount) := by
  have hstage : job.status.stage = 6 := by rw [haccepted]; rfl
  have hkeep := h.keep call
  exact ⟨fun _ => hkeep.assigned (by omega), fun _ => hkeep.verified (by omega),
    fun _ => hkeep.accepted (by omega), fun _ => hkeep.payout (by omega), fun _ => rfl⟩

/-- Every row of a run from a new market has its history. -/
theorem jobHistory_run (hstart : start.science.jobs.find? jobId = none)
    (calls : List (Instant × MarketCall)) : ∀ job,
    (marketAfter mc start calls).science.jobs.find? jobId = some job →
      JobHistory mc start jobId calls job := by
  induction calls using List.reverseRecOn with
  | nil =>
    intro job hjob
    rw [marketAfter, List.foldl_nil, hstart] at hjob
    cases hjob
  | append_singleton calls call ih =>
    intro job hjob
    have hstep : marketAfter mc start (calls ++ [call]) =
        (marketAfter mc start calls).step mc call := List.foldl_concat ..
    have hmove := jobMove_step mc (marketAfter mc start calls) call jobId
    rw [← hstep, hjob] at hmove
    generalize hold : (marketAfter mc start calls).science.jobs.find? jobId = old at hmove
    cases hmove with
    | kept => exact (ih job hold).keep call
    | created hstatus hunpaid => exact .created hstatus hunpaid
    | moved hnext hworker hresult hproof hunits =>
      exact (ih _ hold).move hold hjob hnext hworker hresult hproof hunits
    | paid haccepted hunpaid => exact (ih _ hold).pay haccepted _ _

/-- A paid job stays paid. -/
theorem paid_run (calls : List (Instant × MarketCall)) : ∀ s : MarketState, ∀ job,
    s.science.jobs.find? jobId = some job → job.status = .paid →
      ∃ job', (marketAfter mc s calls).science.jobs.find? jobId = some job' ∧
        job'.status = .paid := by
  induction calls with
  | nil => exact fun s job hjob hpaid => ⟨job, hjob, hpaid⟩
  | cons call rest ih =>
    intro s job hjob hpaid
    have hmove := jobMove_step mc s call jobId
    rw [hjob] at hmove
    generalize hnew : (s.step mc call).science.jobs.find? jobId = new at hmove
    cases hmove with
    | kept => exact ih _ job hnew hpaid
    | moved hnext =>
      rw [hpaid] at hnext
      cases hnext
    | paid haccepted =>
      rw [hpaid] at haccepted
      cases haccepted

/-! ## Payments -/

/-- A job is paid at most its maximum. -/
theorem payoutAmount_le_maxReward (job : ScienceJobRow) (units : ℤ) :
    payoutAmount job units ≤ job.maxReward := by
  have h := roundHalfEven_mono (min_le_right (units * job.rewardPerComputeUnit)
    (job.maxReward * 10 ^ 8)) (d := 10 ^ 8) (by norm_num)
  have hexact := roundHalfEven_mul job.maxReward (d := 10 ^ 8) (by norm_num)
  simp only [Nat.cast_pow, Nat.cast_ofNat] at hexact
  rw [hexact] at h
  exact h

/-- It is paid at most its units at the price of one. -/
theorem payoutAmount_le_units (job : ScienceJobRow) (units : ℤ) :
    payoutAmount job units ≤ roundHalfEven (units * job.rewardPerComputeUnit) (10 ^ 8) :=
  roundHalfEven_mono (min_le_left _ _) (by norm_num)

/-- A call that pays the job. -/
def PaysOut (mc : MarketConfig) (s : MarketState) (now : Instant) (jobId : String) : Prop :=
  ∃ ledger science, payScienceWorker mc now s.ledger s.science jobId = .ok (ledger, science)

variable (mc start jobId) in
/-- What a payment at an instant, after these calls, rests on. -/
structure PaidWork (before after : List (Instant × MarketCall)) (now : Instant) (ledger : Ledger)
    (job : ScienceJobRow) : Prop where
  row : (marketAfter mc start before).science.jobs.find? jobId = some job
  accepted : job.status = .accepted
  posted : Posts (marketAfter mc start before).ledger ledger
    [workerPayment now jobId scienceReserveAccountId "science_reserve" (-job.payoutAmount)
      "science worker payment debit",
    workerPayment now jobId (textOr job.workerAddress "") "science_worker" job.payoutAmount
      "science worker payment"]
  reward : job.payoutAmount ≤ job.maxReward
  work : job.payoutAmount ≤
    roundHalfEven (job.computeUnitsUsed * job.rewardPerComputeUnit) (10 ^ 8)
  units : job.computeUnitsUsed ≤ job.maxComputeUnits
  acceptance : ∃ later row, BecameAt mc start jobId .accepted before later row ∧
    job.workerAddress = row.workerAddress ∧ job.resultHash = row.resultHash ∧
      job.proofHash = row.proofHash
  assignment : ∃ later row, BecameAt mc start jobId .assigned before later row ∧
    (NamesNoWorker jobId later → job.workerAddress = row.workerAddress)
  verification : ∃ later row, BecameAt mc start jobId .verified before later row ∧
    (GivesNoHashes jobId later → job.resultHash = row.resultHash ∧ job.proofHash = row.proofHash)
  once : ∀ between now' rest, after = between ++ (now', .pay jobId) :: rest →
    ¬ PaysOut mc (marketAfter mc start (before ++ (now, .pay jobId) :: between)) now' jobId

/-- **A payment** is for accepted work, within the reward and the units, to the worker of the
acceptance, and the only one of the job. -/
theorem paid_for_accepted_work (hstart : start.science.jobs.find? jobId = none)
    (before after : List (Instant × MarketCall)) {now : Instant} {ledger : Ledger}
    {science : ScienceTables}
    (hpay : payScienceWorker mc now (marketAfter mc start before).ledger
      (marketAfter mc start before).science jobId = .ok (ledger, science)) :
    ∃ job, PaidWork mc start jobId before after now ledger job := by
  obtain ⟨job, hjob, haccepted, -, hjobs, hposts⟩ := payScienceWorker_row hpay
  have hhistory := jobHistory_run hstart before job hjob
  have hstage : job.status.stage = 6 := by rw [haccepted]; rfl
  obtain ⟨-, hunits, hpayout⟩ := hhistory.payout (by omega)
  refine ⟨job, hjob, haccepted, hposts, ?_, ?_, hunits, hhistory.accepted (by omega),
    hhistory.assigned (by omega), hhistory.verified (by omega), ?_⟩
  · rw [hpayout]
    exact payoutAmount_le_maxReward job _
  · rw [hpayout]
    exact payoutAmount_le_units job _
  · rintro between now' rest - ⟨ledger', science', hagain⟩
    -- after the payment the job is paid, and stays so
    have hstep : ((marketAfter mc start before).step mc (now, .pay jobId)).science = science := by
      unfold MarketState.step MarketCall.run
      dsimp only
      rw [hpay]
      rfl
    have hpaid : ((marketAfter mc start before).step mc (now, .pay jobId)).science.jobs.find? jobId =
        some (job.pay now job.payoutAmount) := by
      rw [hstep, hjobs, Sql.Table.find?_modify, if_pos rfl, hjob]
      rfl
    obtain ⟨job', hjob', hpaid'⟩ := paid_run between _ _ hpaid rfl
    obtain ⟨job'', hjob'', haccepted', -⟩ := payScienceWorker_row hagain
    have hsplit : marketAfter mc start (before ++ (now, .pay jobId) :: between) =
        marketAfter mc ((marketAfter mc start before).step mc (now, .pay jobId)) between := by
      unfold marketAfter
      rw [List.foldl_append, List.foldl_cons]
    rw [hsplit, hjob'] at hjob''
    cases hjob''
    rw [hpaid'] at haccepted'
    cases haccepted'

end

/-! ## A local market -/

/-- The reserve is open. -/
def openMarket : MarketState := .genesis ⟨.empty, []⟩ researcherStake
  { lockedGovernanceRow localConfig with status := .l2Active, payoutsEnabled := true }

def localTransition (status : String) (args : TransitionArgs) : Instant × MarketCall :=
  (days 11, .transition "job-1" status args)

/-- A job is assigned. -/
def assignedJob : List (Instant × MarketCall) :=
  fundedJob ++ [localTransition "queued" {},
    localTransition "assigned" { workerAddress := some "worker-1" }]

/-- The work of the job is verified. -/
def verifiedJob : List (Instant × MarketCall) :=
  assignedJob ++ [localTransition "committed" {},
    localTransition "submitted" { resultHash := some "result", proofHash := some "proof" },
    localTransition "verified" {}]

/-- The job is accepted for what was verified. -/
def acceptedJob : List (Instant × MarketCall) :=
  verifiedJob ++ [localTransition "accepted" { computeUnitsUsed := some 100000000 }]

/-- The job is accepted for another result of another worker. -/
def replacedJob : List (Instant × MarketCall) :=
  verifiedJob ++ [localTransition "accepted"
    { workerAddress := some "worker-2", resultHash := some "other"
      computeUnitsUsed := some 100000000 }]

/-- The columns of the job that bind a payment. -/
def boundColumns (calls : List (Instant × MarketCall)) :
    Option (JobStatus × Option String × Option String) :=
  ((marketAfter localMarket openMarket calls).science.jobs.find? "job-1").map fun job =>
    (job.status, job.workerAddress, job.resultHash)

def paysLocally (calls : List (Instant × MarketCall)) : Bool :=
  (payScienceWorker localMarket (days 12) (marketAfter localMarket openMarket calls).ledger
    (marketAfter localMarket openMarket calls).science "job-1").toOption.isSome

/-- The run that is evaluated ends with a payment. -/
theorem pays_of_locally {calls : List (Instant × MarketCall)} (h : paysLocally calls = true) :
    ∃ ledger science, payScienceWorker localMarket (days 12)
      (marketAfter localMarket openMarket calls).ledger
      (marketAfter localMarket openMarket calls).science "job-1" = .ok (ledger, science) := by
  unfold paysLocally at h
  cases hpay : payScienceWorker localMarket (days 12)
    (marketAfter localMarket openMarket calls).ledger
    (marketAfter localMarket openMarket calls).science "job-1" with
  | error e =>
    rw [hpay] at h
    cases h
  | ok result => exact ⟨result.1, result.2, rfl⟩

/-- A job is claimed, done, accepted and paid. -/
theorem paid_for_accepted_work_local : ∃ ledger job,
    PaidWork localMarket openMarket "job-1" acceptedJob [] (days 12) ledger job := by
  have hpays : paysLocally acceptedJob = true := by decide +kernel
  obtain ⟨ledger, science, hpay⟩ := pays_of_locally hpays
  exact ⟨ledger, paid_for_accepted_work rfl acceptedJob [] hpay⟩

/-- The columns of a row are found with its status. -/
theorem row_of_boundColumns {calls : List (Instant × MarketCall)} {status : JobStatus}
    {worker result : Option String} (h : boundColumns calls = some (status, worker, result)) :
    ∃ job, (marketAfter localMarket openMarket calls).science.jobs.find? "job-1" = some job ∧
      job.status = status ∧ job.workerAddress = worker ∧ job.resultHash = result := by
  obtain ⟨job, hjob, hcolumns⟩ := Option.map_eq_some_iff.mp h
  cases hcolumns
  exact ⟨job, hjob, rfl, rfl, rfl⟩

/-- The row after the call tells when its status was reached. -/
theorem becameAt_of_boundColumns {before after : List (Instant × MarketCall)}
    {call : Instant × MarketCall} {earlier status : JobStatus} (hne : earlier ≠ status)
    {worker worker' result result' : Option String}
    (hearlier : boundColumns before = some (earlier, worker', result'))
    (h : boundColumns (before ++ [call]) = some (status, worker, result)) :
    ∃ row, BecameAt localMarket openMarket "job-1" status (before ++ call :: after) after row ∧
      row.workerAddress = worker ∧ row.resultHash = result := by
  obtain ⟨old, hold, hstatus, -⟩ := row_of_boundColumns hearlier
  obtain ⟨row, hrow, hreached, hworker, hresult⟩ := row_of_boundColumns h
  refine ⟨row, ⟨before, call, rfl, fun old' hold' => ?_, hrow, hreached⟩, hworker, hresult⟩
  rw [hold] at hold'
  cases hold'
  rw [hstatus]
  exact hne

/-- The worker and the result of a payment are replaced by the acceptance. -/
theorem acceptance_replaces_work :
    ¬ ∀ (mc : MarketConfig) (start : MarketState) (jobId : String)
      (before : List (Instant × MarketCall)) (now : Instant) (ledger : Ledger)
      (science : ScienceTables), start.science.jobs.find? jobId = none →
      payScienceWorker mc now (marketAfter mc start before).ledger
        (marketAfter mc start before).science jobId = .ok (ledger, science) →
      ∀ job, (marketAfter mc start before).science.jobs.find? jobId = some job →
        (∀ later row, BecameAt mc start jobId .assigned before later row →
          job.workerAddress = row.workerAddress) ∧
        (∀ later row, BecameAt mc start jobId .verified before later row →
          job.resultHash = row.resultHash ∧ job.proofHash = row.proofHash) := by
  intro hall
  have hpays : paysLocally replacedJob = true := by decide +kernel
  have hpaid : boundColumns replacedJob = some (.accepted, some "worker-2", some "other") := by
    decide +kernel
  have hqueued : boundColumns (fundedJob ++ [localTransition "queued" {}]) =
      some (.queued, none, none) := by decide +kernel
  have hassigned : boundColumns (fundedJob ++ [localTransition "queued" {}] ++
      [localTransition "assigned" { workerAddress := some "worker-1" }]) =
        some (.assigned, some "worker-1", none) := by decide +kernel
  obtain ⟨ledger, science, hpay⟩ := pays_of_locally hpays
  obtain ⟨job, hjob, -, hworker, -⟩ := row_of_boundColumns hpaid
  obtain ⟨row, hbecame, hrow, -⟩ := becameAt_of_boundColumns (by decide) hqueued hassigned
  have hsame := (hall localMarket openMarket "job-1" replacedJob (days 12) ledger science rfl hpay
    job hjob).1 _ row hbecame
  rw [hworker, hrow] at hsame
  exact absurd hsame (by decide)

end Picoin
