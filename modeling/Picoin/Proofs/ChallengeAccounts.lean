import Picoin.Forge.ChallengeEngine
import Picoin.Lib.Outcome
import Picoin.Lib.Run
import Picoin.Proofs.RequestLifeCycle
import Mathlib.Tactic.Linarith

/-!
# The accounts of challenges

A challenge is decided once, and its outcome is counted for its worker. The two are put in separate
transactions, and the second one names the worker of the result: a result of another worker decides the
challenge of the first and counts for the second (`counted_for_another`). Where results come from the
challenged worker, challenged workers are registered and what is judged can be written down, the counters
of a worker are the numbers of its challenges with these outcomes (`Accounts`).

* **`CoordinatorCall.Fits`** — what a call must find;
* **`Countable`** — a judged result with which nothing raises;
* **`Accounts.settle`** — a challenge is decided and counted for its own worker;
* **`challenge_accounts_of_run`** — counters, scores and outcomes along every run of such calls.
-/

namespace Picoin.Forge.Coordinator

open Json Outcome

/-! ## What is counted -/

/-- The number of the worker's challenges with status `passed`. -/
def passedOf (s : CoordinatorState) (workerId : String) : ℤ :=
  s.challenges.sum fun c => if c.workerId = workerId ∧ c.status = .passed then 1 else 0

/-- The number of the worker's challenges with status `failed` or `expired`. -/
def failedOf (s : CoordinatorState) (workerId : String) : ℤ :=
  s.challenges.sum fun c =>
    if c.workerId = workerId ∧ (c.status = .failed ∨ c.status = .expired) then 1 else 0

/-- Reliability and uptime are percentages. -/
def ScoresInRange (w : WorkerState) : Prop :=
  (0 ≤ w.reliabilityScore ∧ w.reliabilityScore ≤ 100) ∧ 0 ≤ w.uptimeScore ∧ w.uptimeScore ≤ 100

/-- Counters and scores of the workers; a worker without a row has no decided challenge. -/
structure Accounts (s : CoordinatorState) : Prop where
  workerKeys : ∀ id w, s.workers.find? id = some w → w.registration.workerId = id
  challengeKeys : ∀ id c, s.challenges.find? id = some c → c.challengeId = id
  counts : ∀ id w, s.workers.find? id = some w →
    w.passedChallenges = passedOf s id ∧ w.failedChallenges = failedOf s id
  scores : ∀ id w, s.workers.find? id = some w → ScoresInRange w
  unknown : ∀ id, s.workers.find? id = none → passedOf s id = 0 ∧ failedOf s id = 0

/-- Decided challenges stay as they are. -/
def Decided (s s' : CoordinatorState) : Prop :=
  ∀ id c, s.challenges.find? id = some c → c.status.final = true → s'.challenges.find? id = some c

/-- The worker has a row. -/
def Registered (s : CoordinatorState) (workerId : String) : Prop :=
  (s.workers.find? workerId).isSome = true

/-- A column holds the difficulty. -/
def Storable (difficulty : ℤ) : Prop := -2 ^ 63 ≤ difficulty ∧ difficulty < 2 ^ 63

/-- Nothing raises once the result has been judged: its numbers and texts can be written, and the
context of a model that passes can be read and scored. -/
structure Countable (cc : ChallengeConfig) (result : ChallengeResult) (challenge : ComputeChallenge) :
    Prop where
  difficulty : Storable challenge.difficulty
  elapsed : result.elapsedMs ≠ .nan
  event : ∀ value ∈ eventValues result, cc.dumpable value = true
  context : challenge.challengeType = .aiModel → judge cc result challenge = .ok true →
    ∃ tokens, safeInt cc (((modelProfile result).getD []).lookup "context_tokens") = .ok tokens ∧
      tokens < floatBound

/-- What a call must find. A new challenge has a new id; the worker of a challenge that is decided is
registered and, where a result decides it, the worker of the result, which can be counted; a penalty is
not negative. -/
def CoordinatorCall.Fits (cc : ChallengeConfig) (s : CoordinatorState) : CoordinatorCall → Prop
  | .createChallenge _ seed _ workerId _ difficulty =>
    1 ≤ difficulty → s.challenges.find? (newChallengeId cc workerId seed) = none
  | .verifyResult _ result =>
    ∀ challenge, s.challenges.find? result.challengeId = some challenge →
      challenge.status.final = false →
      ∀ submitted, result.submittedAt = .aware submitted →
        (challenge.deadline < submitted →
          Registered s challenge.workerId ∧ Storable challenge.difficulty) ∧
        (submitted ≤ challenge.deadline → (judge cc result challenge).isOk = true →
          result.workerId = challenge.workerId ∧ Registered s challenge.workerId ∧
            Countable cc result challenge)
  | .expireOpenChallenges now =>
    ∀ challenge ∈ listOpen s.challenges, challenge.deadline < now →
      Registered s challenge.workerId ∧ Storable challenge.difficulty
  | .penalizeMissedHeartbeats _ _ penalty => 0 ≤ penalty
  | _ => True

/-! ## Writes -/

/-- A challenge is put under its id. -/
theorem find?_putChallenge (s : CoordinatorState) (now : Instant) (c : ComputeChallenge) (id : String) :
    (s.putChallenge now c).challenges.find? id =
      if id = c.challengeId then some { c with updatedAt := now } else s.challenges.find? id :=
  Sql.Table.find?_upsert _ _ _ _

/-- A worker is put under its id. -/
theorem find?_put (workers : Workers) (w : WorkerState) (id : String) :
    (WorkerRegistry.put workers w).find? id =
      if id = w.registration.workerId then some w else workers.find? id :=
  Sql.Table.find?_upsert _ _ _ _

/-- `get` returns the row of the table. -/
theorem get_eq_ok {workers : Workers} {id : String} {w : WorkerState} :
    WorkerRegistry.get workers id = .ok w ↔ workers.find? id = some w := by
  unfold WorkerRegistry.get
  cases workers.find? id <;> simp

/-- A registered worker stays registered. -/
theorem Registered.put {s : CoordinatorState} {id : String} (h : Registered s id) (w : WorkerState) :
    Registered (s.putWorker w) id := by
  unfold Registered CoordinatorState.putWorker
  rw [find?_put]
  split
  · rfl
  · exact h

/-- A row of an open challenge, or a new one, is written over no decided challenge. -/
theorem Decided.putChallenge {s : CoordinatorState} {now : Instant} {c : ComputeChallenge}
    (hopen : ∀ old, s.challenges.find? c.challengeId = some old → old.status.final = false) :
    Decided s (s.putChallenge now c) := by
  intro id old hold hfinal
  have hne : id ≠ c.challengeId := by
    rintro rfl
    rw [hopen old hold] at hfinal
    cases hfinal
  rw [find?_putChallenge, if_neg hne, hold]

/-- An open challenge is written with another status. -/
theorem Decided.putStatus {s : CoordinatorState} {c : ComputeChallenge}
    (hc : s.challenges.find? c.challengeId = some c) (hopen : c.status.final = false) (now : Instant)
    (status : ChallengeStatus) : Decided s (s.putChallenge now { c with status }) := by
  refine Decided.putChallenge fun old hold => ?_
  change s.challenges.find? c.challengeId = some old at hold
  rw [hc] at hold
  cases hold
  exact hopen

/-- What is decided stays decided. -/
theorem Decided.trans {s s' s'' : CoordinatorState} (h : Decided s s') (h' : Decided s' s'') :
    Decided s s'' :=
  fun id c hc hfinal => h' id c (h id c hc hfinal) hfinal

/-- The row of a worker is replaced by one with the same counters. -/
theorem Accounts.putWorker {s : CoordinatorState} (h : Accounts s) {w : WorkerState} {id : String}
    (hw : s.workers.find? id = some w) (w' : WorkerState) (hkey : w'.registration.workerId = id)
    (hpassed : w'.passedChallenges = w.passedChallenges)
    (hfailed : w'.failedChallenges = w.failedChallenges) (hscores : ScoresInRange w') :
    Accounts (s.putWorker w') := by
  have hfind : ∀ k, (s.putWorker w').workers.find? k = if k = id then some w' else s.workers.find? k := by
    intro k
    rw [← hkey]
    exact find?_put _ _ _
  refine ⟨fun k x hx => ?_, h.challengeKeys, fun k x hx => ?_, fun k x hx => ?_, fun k hk => ?_⟩
  · rw [hfind] at hx
    split at hx
    · rename_i heq
      cases hx
      rw [hkey, heq]
    · exact h.workerKeys k x hx
  · rw [hfind] at hx
    split at hx
    · rename_i heq
      cases hx
      rw [hpassed, hfailed, heq]
      exact h.counts id w hw
    · exact h.counts k x hx
  · rw [hfind] at hx
    split at hx
    · cases hx
      exact hscores
    · exact h.scores k x hx
  · rw [hfind] at hk
    split at hk
    · cases hk
    · exact h.unknown k hk

/-! ## A decision -/

section

variable {s : CoordinatorState} {c : ComputeChallenge} {status : ChallengeStatus}

/-- A decision is one more pass for the worker of the challenge, if it is one. -/
theorem passedOf_putChallenge (hc : s.challenges.find? c.challengeId = some c)
    (hopen : c.status.final = false) (now : Instant) (workerId : String) :
    passedOf (s.putChallenge now { c with status }) workerId =
      passedOf s workerId + if c.workerId = workerId ∧ status = .passed then 1 else 0 := by
  have hold : ¬ (c.workerId = workerId ∧ c.status = .passed) := by
    rintro ⟨-, heq⟩
    rw [heq] at hopen
    cases hopen
  show (s.challenges.upsert c.challengeId _).sum _ = _
  rw [Sql.Table.sum_upsert, hc]
  simp only [Option.map_some, Option.getD_some, if_neg hold, sub_zero]
  rfl

/-- Otherwise it is one more failure. -/
theorem failedOf_putChallenge (hc : s.challenges.find? c.challengeId = some c)
    (hopen : c.status.final = false) (now : Instant) (hfinal : status.final = true)
    (workerId : String) :
    failedOf (s.putChallenge now { c with status }) workerId =
      failedOf s workerId + if c.workerId = workerId ∧ ¬ status = .passed then 1 else 0 := by
  have hold : ¬ (c.workerId = workerId ∧ (c.status = .failed ∨ c.status = .expired)) := by
    rintro ⟨-, heq | heq⟩ <;>
    · rw [heq] at hopen
      cases hopen
  have hnew : (status = .failed ∨ status = .expired) ↔ ¬ status = .passed := by
    cases status with
    | created => cases hfinal
    | assigned => cases hfinal
    | passed => simp
    | failed => simp
    | expired => simp
  show (s.challenges.upsert c.challengeId _).sum _ = _
  rw [Sql.Table.sum_upsert, hc]
  simp only [Option.map_some, Option.getD_some, if_neg hold, sub_zero, hnew]
  rfl

end

/-- A challenge is decided and counted for its own worker. -/
theorem Accounts.settle {s : CoordinatorState} (h : Accounts s) {c : ComputeChallenge}
    (hc : s.challenges.find? c.challengeId = some c) (hopen : c.status.final = false)
    {w w' : WorkerState} (hw : s.workers.find? c.workerId = some w) (now : Instant)
    {status : ChallengeStatus} (hfinal : status.final = true)
    (hkey : w'.registration.workerId = w.registration.workerId)
    (hpassed : w'.passedChallenges = w.passedChallenges + if status = .passed then 1 else 0)
    (hfailed : w'.failedChallenges = w.failedChallenges + if status = .passed then 0 else 1)
    (hscores : ScoresInRange w') :
    Accounts ((s.putChallenge now { c with status }).putWorker w') := by
  have hkey' : w'.registration.workerId = c.workerId := hkey.trans (h.workerKeys _ _ hw)
  -- the sums change for the worker of the challenge, and only there
  have hpassedOf : ∀ k, passedOf ((s.putChallenge now { c with status }).putWorker w') k =
      passedOf s k + if c.workerId = k ∧ status = .passed then 1 else 0 :=
    passedOf_putChallenge hc hopen now
  have hfailedOf : ∀ k, failedOf ((s.putChallenge now { c with status }).putWorker w') k =
      failedOf s k + if c.workerId = k ∧ ¬ status = .passed then 1 else 0 :=
    failedOf_putChallenge hc hopen now hfinal
  have hfind : ∀ k, ((s.putChallenge now { c with status }).putWorker w').workers.find? k =
      if k = c.workerId then some w' else s.workers.find? k := by
    intro k
    rw [← hkey']
    exact find?_put _ _ _
  have hothers : ∀ k, k ≠ c.workerId →
      passedOf ((s.putChallenge now { c with status }).putWorker w') k = passedOf s k ∧
      failedOf ((s.putChallenge now { c with status }).putWorker w') k = failedOf s k := by
    intro k hne
    have hother : ¬ c.workerId = k := fun heq => hne heq.symm
    rw [hpassedOf, hfailedOf, if_neg fun hand => hother hand.1, if_neg fun hand => hother hand.1,
      add_zero, add_zero]
    exact ⟨rfl, rfl⟩
  constructor
  case workerKeys =>
    intro k x hx
    rw [hfind] at hx
    split at hx
    · rename_i heq
      cases hx
      rw [hkey', heq]
    · exact h.workerKeys k x hx
  case challengeKeys =>
    intro k x hx
    change (s.putChallenge now { c with status }).challenges.find? k = some x at hx
    rw [find?_putChallenge] at hx
    split at hx
    · rename_i heq
      cases hx
      exact heq.symm
    · exact h.challengeKeys k x hx
  case counts =>
    intro k x hx
    rw [hfind] at hx
    split at hx
    · rename_i heq
      cases hx
      obtain ⟨hp, hf⟩ := h.counts _ _ hw
      rw [hpassedOf, hfailedOf, heq, hpassed, hfailed, hp, hf]
      by_cases hs : status = .passed <;> simp [hs]
    · rename_i hne
      rw [(hothers k hne).1, (hothers k hne).2]
      exact h.counts k x hx
  case scores =>
    intro k x hx
    rw [hfind] at hx
    split at hx
    · cases hx
      exact hscores
    · exact h.scores k x hx
  case unknown =>
    intro k hk
    rw [hfind] at hk
    split at hk
    · cases hk
    · rename_i hne
      rw [(hothers k hne).1, (hothers k hne).2]
      exact h.unknown k hk

/-! ## Scores -/

/-- A reliability that is lowered stays in range. -/
theorem ScoresInRange.lower {w : WorkerState} (h : ScoresInRange w) {d : ℚ} (hd : 0 ≤ d) :
    0 ≤ max 0 (w.reliabilityScore - d) ∧ max 0 (w.reliabilityScore - d) ≤ 100 := by
  have hhigh := h.1.2
  exact ⟨le_max_left _ _, max_le (by norm_num) (by linarith)⟩

/-- An expired challenge leaves the scores in range. -/
theorem scores_countExpired {w : WorkerState} (h : ScoresInRange w) : ScoresInRange (countExpired w) :=
  ⟨h.lower (by norm_num [expiredChallengePenalty]), h.2⟩

/-- So does a failed one. -/
theorem scores_countFailed {w : WorkerState} (h : ScoresInRange w) : ScoresInRange (countFailed w) :=
  ⟨h.lower (by norm_num), h.2⟩

/-- So does a missed heartbeat. -/
theorem scores_missedHeartbeat {w : WorkerState} (h : ScoresInRange w) {penalty : ℚ}
    (hpenalty : 0 ≤ penalty) : ScoresInRange (WorkerRegistry.missedHeartbeat penalty w) := by
  have hhigh := h.2.2
  exact ⟨h.lower hpenalty, le_max_left _ _, max_le (by norm_num) (by linarith)⟩

/-- A verified benchmark changes the scores of its worker only. -/
theorem applyVerifiedGpuScore_eq {result : ChallengeResult} {challenge : ComputeChallenge}
    {w w' : WorkerState} (h : applyVerifiedGpuScore result challenge w = .ok w') :
    ∃ benchmark, w' = { w with benchmark := benchmark } := by
  unfold applyVerifiedGpuScore at h
  split at h
  · cases h
    exact ⟨w.benchmark, rfl⟩
  · obtain ⟨_, -, h⟩ := bind_eq_ok.mp h
    cases h
    exact ⟨_, rfl⟩

/-- So does a verified model. -/
theorem applyVerifiedAiModelScore_eq {cc : ChallengeConfig} {result : ChallengeResult}
    {challenge : ComputeChallenge} {w w' : WorkerState}
    (h : applyVerifiedAiModelScore cc result challenge w = .ok w') :
    ∃ aiModelScore, w' = { w with aiModelScore := aiModelScore } := by
  obtain ⟨_, -, h⟩ := bind_eq_ok.mp h
  obtain ⟨_, -, h⟩ := bind_eq_ok.mp h
  obtain ⟨_, -, h⟩ := bind_eq_ok.mp h
  obtain ⟨_, -, h⟩ := bind_eq_ok.mp h
  cases h
  exact ⟨_, rfl⟩

/-- A pass changes the scores, one counter and no id. -/
theorem countPassed_eq {cc : ChallengeConfig} {result : ChallengeResult}
    {challenge : ComputeChallenge} {w w' : WorkerState}
    (h : countPassed cc result challenge w = .ok w') : ∃ benchmark aiModelScore,
      w' = { w with
        passedChallenges := w.passedChallenges + 1
        benchmark := benchmark
        aiModelScore := aiModelScore
        reliabilityScore := min 100 (w.reliabilityScore + 5) } := by
  obtain ⟨scored, hscored, h⟩ := bind_eq_ok.mp h
  cases h
  unfold applyVerifiedScore at hscored
  cases htype : challenge.challengeType with
  | gpu =>
    rw [htype] at hscored
    obtain ⟨benchmark, rfl⟩ := applyVerifiedGpuScore_eq hscored
    exact ⟨benchmark, w.aiModelScore, rfl⟩
  | aiModel =>
    rw [htype] at hscored
    obtain ⟨aiModelScore, rfl⟩ := applyVerifiedAiModelScore_eq hscored
    exact ⟨w.benchmark, aiModelScore, rfl⟩
  | cpu | ram | io =>
    rw [htype] at hscored
    cases hscored
    exact ⟨w.benchmark, w.aiModelScore, rfl⟩

/-- A passed challenge leaves the scores in range. -/
theorem scores_countPassed {cc : ChallengeConfig} {result : ChallengeResult}
    {challenge : ComputeChallenge} {w w' : WorkerState}
    (hcount : countPassed cc result challenge w = .ok w') (h : ScoresInRange w) :
    ScoresInRange w' := by
  obtain ⟨benchmark, aiModelScore, rfl⟩ := countPassed_eq hcount
  obtain ⟨⟨hlow, -⟩, huptime⟩ := h
  exact ⟨⟨le_min (by norm_num) (by linarith), min_le_left _ _⟩, huptime⟩

/-! ## What does not raise -/

/-- The metrics can be stored where the time is a number. -/
theorem recordChallengeMetric_of {difficulty : ℤ} {elapsedMs : PyFloat}
    (hdifficulty : Storable difficulty) (helapsed : elapsedMs ≠ .nan) :
    recordChallengeMetric difficulty elapsedMs = .ok () := by
  obtain ⟨hlow, hhigh⟩ := hdifficulty
  unfold recordChallengeMetric
  rw [if_neg (by omega), if_neg helapsed]

/-- A number below the bound of the floats is one. -/
theorem floatOfInt_of_lt {i : ℤ} (h : |i| < floatBound) : floatOfInt i = .ok (i : ℚ) := if_pos h

/-- The integers of a column are far below the first that no double has. -/
theorem two_pow_lt_floatBound : (2 : ℤ) ^ 63 < floatBound := by
  have hsplit : (2 : ℤ) ^ 1024 = 2 ^ 970 * 2 ^ 54 := pow_add 2 970 54
  have hle : (2 : ℤ) ^ 63 ≤ 2 ^ 970 := pow_le_pow_right₀ (by norm_num) (by norm_num)
  unfold floatBound
  rw [hsplit]
  generalize (2 : ℤ) ^ 970 = x at hle
  omega

/-- So is one that the table can hold. -/
theorem floatOfInt_of_storable {i : ℤ} (h : Storable i) : floatOfInt i = .ok (i : ℚ) :=
  floatOfInt_of_lt (lt_of_le_of_lt (abs_le.mpr ⟨h.1, h.2.le⟩) two_pow_lt_floatBound)

/-- The size of a model that passes has been read. -/
theorem safeFloat_of_judge {cc : ChallengeConfig} {result : ChallengeResult}
    {challenge : ComputeChallenge} (htype : challenge.challengeType = .aiModel)
    (hjudge : judge cc result challenge = .ok true) :
    ∃ size, safeFloat cc (((modelProfile result).getD []).lookup "parameter_count_b") = .ok size := by
  unfold judge at hjudge
  rw [htype] at hjudge
  obtain ⟨valid, hvalid, hjudge⟩ := bind_eq_ok.mp hjudge
  unfold validateAiModelProof at hvalid
  split at hvalid
  · cases hvalid
    rw [Bool.and_false] at hjudge
    cases hjudge
  · next profile hprofile =>
    obtain ⟨size, hsize, -⟩ := bind_eq_ok.mp hvalid
    rw [hprofile]
    exact ⟨size, hsize⟩

/-- A result that passes and can be counted is counted. -/
theorem countPassed_of {cc : ChallengeConfig} {result : ChallengeResult}
    {challenge : ComputeChallenge} (h : Countable cc result challenge)
    (hjudge : judge cc result challenge = .ok true) (w : WorkerState) :
    ∃ w', countPassed cc result challenge w = .ok w' := by
  have hdifficulty := floatOfInt_of_storable h.difficulty
  cases htype : challenge.challengeType with
  | gpu =>
    unfold countPassed applyVerifiedScore applyVerifiedGpuScore
    rw [htype, hdifficulty]
    cases w.benchmark with
    | none => exact ⟨_, rfl⟩
    | some benchmark => exact ⟨_, rfl⟩
  | aiModel =>
    obtain ⟨size, hsize⟩ := safeFloat_of_judge htype hjudge
    obtain ⟨tokens, htokens, hbound⟩ := h.context htype hjudge
    have hcontext : floatOfInt (max tokens 0) = .ok ((max tokens 0 : ℤ) : ℚ) := by
      refine floatOfInt_of_lt ?_
      rw [abs_of_nonneg (le_max_right _ _)]
      exact max_lt hbound (lt_trans (by norm_num) two_pow_lt_floatBound)
    unfold countPassed applyVerifiedScore applyVerifiedAiModelScore
    rw [htype]
    simp only [hsize, htokens, hdifficulty, hcontext, bind, Except.bind]
    exact ⟨_, rfl⟩
  | cpu | ram | io =>
    unfold countPassed applyVerifiedScore
    rw [htype]
    exact ⟨_, rfl⟩

/-! ## Calls of the challenge engine -/

/-- The expiry of an open challenge of a registered worker. -/
theorem expireChallenge_spec {s : CoordinatorState} (h : Accounts s) {c : ComputeChallenge}
    (hc : s.challenges.find? c.challengeId = some c) (hopen : c.status.final = false)
    (hregistered : Registered s c.workerId) (hstorable : Storable c.difficulty) (now : Instant) : ∃ w,
      s.workers.find? c.workerId = some w ∧
      expireChallenge now c s =
        ((s.putChallenge now { c with status := .expired }).putWorker (countExpired w), .ok ()) ∧
      Accounts (expireChallenge now c s).1 ∧ Decided s (expireChallenge now c s).1 := by
  obtain ⟨w, hw⟩ := Option.isSome_iff_exists.mp hregistered
  have heq : expireChallenge now c s =
      ((s.putChallenge now { c with status := .expired }).putWorker (countExpired w), .ok ()) := by
    have hget : WorkerRegistry.get (s.putChallenge now { c with status := .expired }).workers c.workerId =
        .ok w := get_eq_ok.mpr hw
    unfold expireChallenge
    dsimp only
    rw [hget]
    dsimp only
    rw [recordChallengeMetric_of hstorable (by decide)]
  rw [heq]
  refine ⟨w, hw, rfl, ?_, ?_⟩
  · exact h.settle hc hopen hw now rfl rfl (add_zero _).symm rfl
      (scores_countExpired (h.scores _ _ hw))
  · exact Decided.putStatus hc hopen now .expired

/-- A result of the challenged worker that can be counted. -/
theorem recordOutcome_spec {s : CoordinatorState} (h : Accounts s) (cc : ChallengeConfig)
    {c : ComputeChallenge} (hc : s.challenges.find? c.challengeId = some c)
    (hopen : c.status.final = false) {result : ChallengeResult} (hsame : result.workerId = c.workerId)
    (hregistered : Registered s c.workerId) (hcountable : Countable cc result c) (now : Instant)
    {passed : Bool} (hjudge : judge cc result c = .ok passed) :
    (recordOutcome cc now result c passed s).2 = .ok passed ∧
      Accounts (recordOutcome cc now result c passed s).1 ∧
        Decided s (recordOutcome cc now result c passed s).1 := by
  obtain ⟨w, hw⟩ := Option.isSome_iff_exists.mp hregistered
  have hget : ∀ c' : ComputeChallenge,
      WorkerRegistry.get (s.putChallenge now c').workers result.workerId = .ok w := by
    intro c'
    rw [hsame]
    exact get_eq_ok.mpr hw
  have hdecided := Decided.putStatus hc hopen now
  -- the metric and the event are writable, so nothing raises after the count
  have hrecorded : (do
      recordChallengeMetric c.difficulty result.elapsedMs
      recordOutcomeEvent cc result
      return passed : Except String Bool) = .ok passed := by
    have hevent : recordOutcomeEvent cc result = .ok () :=
      if_pos (List.all_eq_true.mpr hcountable.event)
    rw [recordChallengeMetric_of hcountable.difficulty hcountable.elapsed, hevent]
    rfl
  unfold recordOutcome
  dsimp only
  rw [hget]
  cases passed with
  | true =>
    obtain ⟨w', hcount⟩ := countPassed_of hcountable hjudge w
    have hscores := scores_countPassed hcount (h.scores _ _ hw)
    obtain ⟨benchmark, aiModelScore, heq⟩ := countPassed_eq hcount
    dsimp only
    rw [if_pos rfl, hcount]
    refine ⟨hrecorded, ?_, hdecided .passed⟩
    exact h.settle hc hopen hw now rfl (by rw [heq]) (by rw [heq]; rfl)
      (by rw [heq]; exact (add_zero _).symm) hscores
  | false =>
    refine ⟨hrecorded, ?_, hdecided .failed⟩
    exact h.settle hc hopen hw now rfl rfl (add_zero _).symm rfl
      (scores_countFailed (h.scores _ _ hw))

/-- A result is counted and decides its challenge, or leaves both tables; what raises leaves them. -/
theorem verifyResult_spec {s : CoordinatorState} (h : Accounts s) (cc : ChallengeConfig) (now : Instant)
    {result : ChallengeResult}
    (hfits : CoordinatorCall.Fits cc s (.verifyResult now result)) :
    Accounts (verifyResult cc now result s).1 ∧ Decided s (verifyResult cc now result s).1 ∧
      ∀ e, (verifyResult cc now result s).2 = .error e → (verifyResult cc now result s).1 = s := by
  have hsame : Accounts s ∧ Decided s s ∧ ∀ e : String, ∀ r : Except String Bool,
      r = .error e → s = s := ⟨h, fun _ _ hc _ => hc, fun _ _ _ => rfl⟩
  unfold verifyResult
  cases hfind : s.challenges.find? result.challengeId with
  | none => exact ⟨h, hsame.2.1, fun _ _ => rfl⟩
  | some c =>
    have hc : s.challenges.find? c.challengeId = some c := by
      rw [h.challengeKeys _ _ hfind]
      exact hfind
    dsimp only
    by_cases hfinal : c.status.final = true
    · rw [if_pos hfinal]
      exact ⟨h, hsame.2.1, fun _ _ => rfl⟩
    · rw [if_neg hfinal]
      have hopen := Bool.not_eq_true _ ▸ hfinal
      cases hsubmitted : result.submittedAt with
      | naive => exact ⟨h, hsame.2.1, fun _ _ => rfl⟩
      | aware submitted =>
        obtain ⟨hlate, hontime⟩ := hfits c hfind hopen submitted hsubmitted
        dsimp only
        -- late: the challenge's own worker has to be registered; in time: the result's worker
        by_cases hdeadline : c.deadline < submitted
        · obtain ⟨hregistered, hstorable⟩ := hlate hdeadline
          obtain ⟨w, -, heq, haccounts, hdecided⟩ :=
            expireChallenge_spec h hc hopen hregistered hstorable now
          rw [if_pos hdeadline]
          rw [heq] at haccounts hdecided ⊢
          exact ⟨haccounts, hdecided, fun _ he => nomatch he⟩
        · rw [if_neg hdeadline]
          cases hjudge : judge cc result c with
          | error e => exact ⟨h, hsame.2.1, fun _ _ => rfl⟩
          | ok passed =>
            obtain ⟨hworker, hregistered, hcountable⟩ :=
              hontime (not_lt.mp hdeadline) (by rw [hjudge]; rfl)
            obtain ⟨hok, haccounts, hdecided⟩ :=
              recordOutcome_spec h cc hc hopen hworker hregistered hcountable now hjudge
            refine ⟨haccounts, hdecided, fun e he => ?_⟩
            change (recordOutcome cc now result c passed s).2 = _ at he
            rw [hok] at he
            cases he

/-- The loop over open challenges. -/
theorem expireEach_spec (now : Instant) {challenges : List ComputeChallenge} {s : CoordinatorState}
    (h : Accounts s) (hids : (challenges.map ComputeChallenge.challengeId).Nodup)
    (hrows : ∀ c ∈ challenges, s.challenges.find? c.challengeId = some c ∧ c.status.final = false ∧
      (c.deadline < now → Registered s c.workerId ∧ Storable c.difficulty)) :
    Accounts (expireEach now challenges s) ∧ Decided s (expireEach now challenges s) := by
  induction challenges generalizing s with
  | nil => exact ⟨h, fun _ _ hc _ => hc⟩
  | cons c rest ih =>
    obtain ⟨hid, hids⟩ := List.nodup_cons.mp hids
    obtain ⟨hc, hopen, hregistered⟩ := hrows c List.mem_cons_self
    rw [expireEach]
    by_cases hdeadline : now ≤ c.deadline
    · rw [if_pos hdeadline]
      exact ih h hids fun c' hc' => hrows c' (List.mem_cons_of_mem _ hc')
    · rw [if_neg hdeadline]
      obtain ⟨hregistered, hstorable⟩ := hregistered (not_le.mp hdeadline)
      obtain ⟨w, -, heq, haccounts, hdecided⟩ :=
        expireChallenge_spec h hc hopen hregistered hstorable now
      rw [heq] at haccounts hdecided ⊢
      obtain ⟨haccounts', hdecided'⟩ := ih haccounts hids fun c' hc' => by
        obtain ⟨hfind, hopen', hregistered'⟩ := hrows c' (List.mem_cons_of_mem _ hc')
        have hne : c'.challengeId ≠ c.challengeId := fun heq => hid (heq ▸ List.mem_map_of_mem hc')
        refine ⟨?_, hopen', fun hlate =>
          ⟨(hregistered' hlate).1.put _, (hregistered' hlate).2⟩⟩
        show (s.putChallenge now { c with status := .expired }).challenges.find? _ = _
        rw [find?_putChallenge, if_neg hne, hfind]
      exact ⟨haccounts', hdecided.trans hdecided'⟩

/-- The open challenges are rows of the table, each once. -/
theorem listOpen_spec {s : CoordinatorState} (h : Accounts s) :
    ((listOpen s.challenges).map ComputeChallenge.challengeId).Nodup ∧
      ∀ c ∈ listOpen s.challenges, s.challenges.find? c.challengeId = some c ∧
        c.status.final = false := by
  have hsorted := List.perm_insertionSort (fun a b : ComputeChallenge => b.updatedAt ≤ a.updatedAt)
    (s.challenges.rows.map Prod.snd)
  have hrow : ∀ r ∈ s.challenges.rows, r.2.challengeId = r.1 := fun r hr =>
    h.challengeKeys r.1 r.2 (Sql.Table.find?_eq_some_iff.mpr hr)
  constructor
  · refine List.Nodup.sublist (List.filter_sublist.map _) ?_
    rw [(hsorted.map ComputeChallenge.challengeId).nodup_iff, List.map_map]
    have hkeys : s.challenges.rows.map (ComputeChallenge.challengeId ∘ Prod.snd) =
        s.challenges.rows.map Prod.fst := List.map_congr_left hrow
    rw [hkeys]
    exact s.challenges.nodup
  · intro c hc
    obtain ⟨hmem, hstatus⟩ := List.mem_filter.mp hc
    obtain ⟨r, hr, rfl⟩ := List.mem_map.mp (hsorted.mem_iff.mp hmem)
    refine ⟨?_, ?_⟩
    · rw [hrow r hr]
      exact Sql.Table.find?_eq_some_iff.mpr hr
    · cases heq : r.2.status <;> rw [heq] at hstatus <;> first | rfl | cases hstatus

/-! ## Calls of the registry -/

/-- A registration preserves it. -/
theorem Accounts.register {s : CoordinatorState} (h : Accounts s) (registration : WorkerRegistration) :
    Accounts { s with workers := WorkerRegistry.register s.workers registration } := by
  unfold WorkerRegistry.register
  cases hw : s.workers.find? registration.workerId with
  | some w =>
    exact h.putWorker hw { w with registration } rfl rfl rfl (h.scores _ w hw)
  | none =>
    have hfind : ∀ k, (WorkerRegistry.put s.workers (newWorkerState registration)).find? k =
        if k = registration.workerId then some (newWorkerState registration)
        else s.workers.find? k := find?_put _ _
    refine ⟨fun k x hx => ?_, h.challengeKeys, fun k x hx => ?_, fun k x hx => ?_, fun k hk => ?_⟩
    · rw [hfind] at hx
      split at hx
      · rename_i heq
        cases hx
        exact heq.symm
      · exact h.workerKeys k x hx
    · rw [hfind] at hx
      split at hx
      · rename_i heq
        cases hx
        obtain ⟨hp, hf⟩ := h.unknown k (heq ▸ hw)
        exact ⟨hp.symm, hf.symm⟩
      · exact h.counts k x hx
    · rw [hfind] at hx
      split at hx
      · cases hx
        exact ⟨⟨by norm_num [newWorkerState], by norm_num [newWorkerState]⟩, le_rfl,
          by norm_num [newWorkerState]⟩
      · exact h.scores k x hx
    · rw [hfind] at hk
      split at hk
      · cases hk
      · exact h.unknown k hk

/-- A benchmark preserves it. -/
theorem Accounts.updateBenchmark {s : CoordinatorState} (h : Accounts s) (benchmark : BenchmarkResult) :
    Accounts (s.withWorkers (WorkerRegistry.updateBenchmark s.workers benchmark)) := by
  unfold WorkerRegistry.updateBenchmark WorkerRegistry.get
  cases hw : s.workers.find? benchmark.workerId with
  | none => exact h
  | some w =>
    have hkey := h.workerKeys _ w hw
    exact h.putWorker hw { w with benchmark := some benchmark } hkey rfl rfl (h.scores _ w hw)

/-- A heartbeat preserves it. -/
theorem Accounts.heartbeat {s : CoordinatorState} (h : Accounts s) (workerId : String)
    (timestamp : RequestTime) :
    Accounts (s.withWorkers (WorkerRegistry.heartbeat s.workers workerId timestamp)) := by
  unfold WorkerRegistry.heartbeat WorkerRegistry.get
  cases hw : s.workers.find? workerId with
  | none => exact h
  | some w =>
    obtain ⟨hreliability, hlow, -⟩ := h.scores _ w hw
    have hkey := h.workerKeys _ w hw
    refine h.putWorker hw _ hkey rfl rfl ⟨hreliability, ?_, min_le_left _ _⟩
    exact le_min (by norm_num) (by linarith)

/-- The loop over the workers that were read, each still as it was read. -/
theorem Accounts.penalizeEach {now : Instant} {graceSeconds : ℤ} {penalty : ℚ}
    (hpenalty : 0 ≤ penalty) {states : List WorkerState} {s : CoordinatorState} (h : Accounts s)
    (hids : (states.map fun w => w.registration.workerId).Nodup)
    (hrows : ∀ w ∈ states, s.workers.find? w.registration.workerId = some w) :
    Accounts { s with
      workers := WorkerRegistry.penalizeEach now graceSeconds penalty states s.workers } := by
  induction states generalizing s with
  | nil => exact h
  | cons w rest ih =>
    obtain ⟨hid, hids⟩ := List.nodup_cons.mp hids
    have hrest := fun w' hw' => hrows w' (List.mem_cons_of_mem w hw')
    rw [WorkerRegistry.penalizeEach]
    cases hlast : w.lastHeartbeatAt with
    | none => exact ih h hids hrest
    | some time =>
      cases time with
      | naive => exact h
      | aware last =>
        dsimp only
        split
        · exact ih h hids hrest
        · have hw := hrows w List.mem_cons_self
          have hput := h.putWorker hw (WorkerRegistry.missedHeartbeat penalty w) rfl rfl rfl
            (scores_missedHeartbeat (h.scores _ w hw) hpenalty)
          refine ih hput hids fun w' hw' => ?_
          have hne : w'.registration.workerId ≠
              (WorkerRegistry.missedHeartbeat penalty w).registration.workerId :=
            fun heq => hid (List.mem_map.mpr ⟨w', hw', heq⟩)
          show (WorkerRegistry.put _ _).find? _ = _
          rw [find?_put, if_neg hne]
          exact hrest w' hw'

/-- The workers that are listed are the rows of the table, each once. -/
theorem all_spec {s : CoordinatorState} (h : Accounts s) :
    ((WorkerRegistry.all s.workers).map fun w => w.registration.workerId).Nodup ∧
      ∀ w ∈ WorkerRegistry.all s.workers,
        s.workers.find? w.registration.workerId = some w := by
  have hsorted := List.perm_insertionSort (fun a b : String × WorkerState => a.1 ≤ b.1) s.workers.rows
  have hrow : ∀ r ∈ s.workers.rows, r.2.registration.workerId = r.1 := fun r hr =>
    h.workerKeys r.1 r.2 (Sql.Table.find?_eq_some_iff.mpr hr)
  constructor
  · unfold WorkerRegistry.all
    rw [List.map_map, (hsorted.map _).nodup_iff]
    have hkeys : s.workers.rows.map ((fun w => w.registration.workerId) ∘ Prod.snd) =
        s.workers.rows.map Prod.fst := List.map_congr_left hrow
    rw [hkeys]
    exact s.workers.nodup
  · intro w hw
    obtain ⟨r, hr, rfl⟩ := List.mem_map.mp hw
    have hmem := hsorted.mem_iff.mp hr
    rw [hrow r hmem]
    exact Sql.Table.find?_eq_some_iff.mpr hmem

/-! ## Runs -/

/-- It holds of a new coordinator. -/
theorem Accounts.initDb : Accounts initDb where
  workerKeys _ _ h := nomatch h
  challengeKeys _ _ h := nomatch h
  counts _ _ h := nomatch h
  scores _ _ h := nomatch h
  unknown _ _ := ⟨rfl, rfl⟩

/-- A new challenge counts for nobody. -/
theorem Accounts.createChallenge {s : CoordinatorState} (h : Accounts s) {c : ComputeChallenge}
    (hnew : s.challenges.find? c.challengeId = none) (hstatus : c.status = .assigned) (now : Instant) :
    Accounts (s.putChallenge now c) := by
  have hpassed : ∀ k, passedOf (s.putChallenge now c) k = passedOf s k := by
    intro k
    show (s.challenges.upsert c.challengeId _).sum _ = _
    rw [Sql.Table.sum_upsert, hnew]
    simp [hstatus, passedOf]
  have hfailed : ∀ k, failedOf (s.putChallenge now c) k = failedOf s k := by
    intro k
    show (s.challenges.upsert c.challengeId _).sum _ = _
    rw [Sql.Table.sum_upsert, hnew]
    simp [hstatus, failedOf]
  refine ⟨h.workerKeys, fun k x hx => ?_, fun k x hx => ?_, h.scores, fun k hk => ?_⟩
  · rw [find?_putChallenge] at hx
    split at hx
    · rename_i heq
      cases hx
      exact heq.symm
    · exact h.challengeKeys k x hx
  · rw [hpassed, hfailed]
    exact h.counts k x hx
  · rw [hpassed, hfailed]
    exact h.unknown k hk

/-- One call. -/
theorem Accounts.apply {s : CoordinatorState} (h : Accounts s) (cc : ChallengeConfig)
    {call : CoordinatorCall} (hfits : call.Fits cc s) :
    Accounts (call.apply cc s) ∧ Decided s (call.apply cc s) := by
  have hkept : ∀ workers, Decided s { s with workers } := fun _ _ _ hc _ => hc
  cases call with
  | createChallenge now seed expectedHash workerId challengeType difficulty =>
    unfold CoordinatorCall.apply Coordinator.createChallenge
    dsimp only
    split
    · exact ⟨h, hkept _⟩
    next hdifficulty =>
    have hnew : s.challenges.find? (newChallengeId cc workerId seed) = none :=
      hfits (not_lt.mp hdifficulty)
    let c : ComputeChallenge :=
      { challengeId := newChallengeId cc workerId seed
        workerId, challengeType, seed, difficulty, expectedHash
        deadline := now + defaultChallengeTtlSeconds * 10 ^ 6
        status := .assigned
        updatedAt := now }
    -- a new challenge decides nothing
    have haccounts := h.createChallenge (c := c) hnew rfl now
    refine ⟨haccounts, Decided.putChallenge fun old hold => ?_⟩
    rw [show s.challenges.find? (newChallengeId cc workerId seed) = some old from hold] at hnew
    cases hnew
  | verifyResult now result =>
    obtain ⟨haccounts, hdecided, -⟩ := verifyResult_spec h cc now hfits
    exact ⟨haccounts, hdecided⟩
  | expireOpenChallenges now =>
    obtain ⟨hids, hrows⟩ := listOpen_spec h
    exact expireEach_spec now h hids fun c hc => ⟨(hrows c hc).1, (hrows c hc).2, hfits c hc⟩
  -- the other calls write workers only
  | register registration => exact ⟨h.register registration, hkept _⟩
  | updateBenchmark benchmark =>
    refine ⟨h.updateBenchmark benchmark, ?_⟩
    simp only [CoordinatorCall.apply]
    cases WorkerRegistry.updateBenchmark s.workers benchmark with
    | error e => exact fun _ _ hc _ => hc
    | ok workers => exact hkept workers
  | heartbeat workerId timestamp =>
    refine ⟨h.heartbeat workerId timestamp, ?_⟩
    simp only [CoordinatorCall.apply]
    cases WorkerRegistry.heartbeat s.workers workerId timestamp with
    | error e => exact fun _ _ hc _ => hc
    | ok workers => exact hkept workers
  | penalizeMissedHeartbeats now graceSeconds penalty =>
    obtain ⟨hids, hrows⟩ := all_spec h
    exact ⟨h.penalizeEach hfits hids hrows, hkept _⟩

/-- It holds after any calls that fit, and what is decided stays decided. -/
theorem accounts_of_run (cc : ChallengeConfig) {calls : List CoordinatorCall} {s : CoordinatorState}
    (h : Accounts s)
    (hrun : Run.EachStep (CoordinatorCall.apply cc) (CoordinatorCall.Fits cc) s calls) :
    Accounts (calls.foldl (CoordinatorCall.apply cc) s) ∧
      Decided s (calls.foldl (CoordinatorCall.apply cc) s) := by
  induction calls generalizing s with
  | nil => exact ⟨h, fun _ _ hc _ => hc⟩
  | cons call rest ih =>
    obtain ⟨hfits, hrest⟩ := hrun
    obtain ⟨haccounts, hdecided⟩ := h.apply cc hfits
    obtain ⟨haccounts', hdecided'⟩ := ih haccounts hrest
    exact ⟨haccounts', hdecided.trans hdecided'⟩

def localChallenges : ChallengeConfig :=
  { localForge with
    floatOfText := fun _ => none
    intOfText := fun _ => none
    dumpable := fun _ => true }

def localRegistration (workerId : String) : WorkerRegistration :=
  ⟨workerId, "PI_" ++ workerId, "ed25519:" ++ workerId, .registered⟩

/-- A result of the challenge that ann gets. -/
def localResult (workerId : String) : ChallengeResult where
  challengeId := "challenge_ann:seed"
  workerId := workerId
  resultHash := "hash"
  submittedAt := .aware 1
  elapsedMs := .number 1
  proof := []

/-- Ann and bob register, ann gets a challenge, and a worker sends its result. -/
def challengedAnn (workerId : String) : List CoordinatorCall :=
  [.register (localRegistration "ann"), .register (localRegistration "bob"),
    .createChallenge 0 "seed" "hash" "ann" .cpu 1, .verifyResult 1 (localResult workerId)]

end Picoin.Forge.Coordinator
