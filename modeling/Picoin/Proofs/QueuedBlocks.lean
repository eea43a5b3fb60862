import Picoin.Proofs.QuorumAgreement
import Picoin.Services.BlockHash

/-!
# A queued block stays

A header whose payload passes the checks of its hash and of its transactions should stay so until
it is replayed. A header is stored without a check, under the hash that it names; a proposal is
stored after the check of its hash, which says nothing about its transactions; and the replay
merges the two, the fields of the proposal first.

* **`Passes`** — the two checks of a payload;
* **`Honest`** — a message about the block passes the checks, and a proposal has the fields that
  the headers have;
* **`passes_of_run`** — in a run of such messages the payload that is replayed passes;
* **`displaced_header`** — a header without the block's fields takes the place of the queued one.
-/

namespace Picoin

open Json Outcome Run

variable {σ : Type}

/-! ## The checks -/

/-- The payload passes `_validate_block_hash`, and its transactions match its Merkle root. -/
def Passes (cc : Client.ClientConfig) (payload : Value) : Prop :=
  validateBlockHash cc payload = .ok () ∧ checkBlockTransactions cc payload = .ok ()

/-- The fields that the checks read. -/
def checkedFields : List String :=
  blockRequiredFields ++ ["difficulty", "fee_reward", "fraud_detected_at", "fraud_reason",
    "fraudulent", "merkle_root", "miner_reward_address", "protocol_params_id", "protocol_version",
    "total_block_ms", "transactions", "tx_count", "tx_hashes", "tx_merkle_root", "validation_mode"]

/-- The value has the field. -/
def carries (payload : Value) (key : String) : Bool := (Client.item payload key).toOption.isSome

section

variable {fields others : List (String × Value)}

/-- The two objects have the same checked fields. -/
def SameChecked (fields others : List (String × Value)) : Prop :=
  ∀ key ∈ checkedFields, fields.lookup key = others.lookup key

/-- A checked key is read alike. -/
theorem SameChecked.item (h : SameChecked fields others) (key : String)
    (hkey : key ∈ checkedFields) :
    Client.item (.obj fields) key = Client.item (.obj others) key := by
  unfold Client.item
  dsimp only
  rw [h key hkey]

/-- So it is with a default. -/
theorem SameChecked.get (h : SameChecked fields others) (key : String) (default : Value)
    (hkey : key ∈ checkedFields) :
    Client.get (.obj fields) key default = Client.get (.obj others) key default := by
  unfold Client.get
  dsimp only
  rw [h key hkey]

/-- So it is with a value in place of null. -/
theorem SameChecked.fieldOr (h : SameChecked fields others) (key : String) (default : Value)
    (hkey : key ∈ checkedFields) :
    Picoin.fieldOr (.obj fields) key default = Picoin.fieldOr (.obj others) key default := by
  unfold Picoin.fieldOr
  rw [h.get key .null hkey]

/-- So it is with a conversion of what is present. -/
theorem SameChecked.presentField (h : SameChecked fields others) (key : String)
    (convert : Value → Except Client.PyError Value) (hkey : key ∈ checkedFields) :
    Picoin.presentField (.obj fields) key convert =
      Picoin.presentField (.obj others) key convert := by
  unfold Picoin.presentField
  rw [h.get key .null hkey]

/-- So it is with a conversion of what is not empty. -/
theorem SameChecked.nonemptyField (h : SameChecked fields others) (key : String)
    (convert : Value → Except Client.PyError Value) (hkey : key ∈ checkedFields) :
    Picoin.nonemptyField (.obj fields) key convert =
      Picoin.nonemptyField (.obj others) key convert := by
  unfold Picoin.nonemptyField
  rw [h.get key .null hkey]

/-- So is the number of transactions. -/
theorem SameChecked.blockTxCount (h : SameChecked fields others) (cc : Client.ClientConfig) :
    Picoin.blockTxCount cc (.obj fields) = Picoin.blockTxCount cc (.obj others) := by
  unfold Picoin.blockTxCount
  rw [h.fieldOr "tx_count" (.int 0) (by decide +kernel)]

/-- The hashes that a block can have are made of its checked fields. -/
theorem SameChecked.candidates (h : SameChecked fields others) (cc : Client.ClientConfig) :
    blockHashCandidates cc (.obj fields) = blockHashCandidates cc (.obj others) := by
  unfold blockHashCandidates blockHashVariantPayloads mandatoryFields leadingGroups protocolGroups
    transactionsGroup fraudGroup
  simp (disch := decide +kernel) only [h.item, h.get, h.fieldOr, h.presentField, h.nonemptyField,
    h.blockTxCount]

/-- The hash is checked alike. -/
theorem SameChecked.validate (h : SameChecked fields others) (cc : Client.ClientConfig) :
    validateBlockHash cc (.obj fields) = validateBlockHash cc (.obj others) := by
  unfold validateBlockHash
  have hmissing : (blockRequiredFields.filter fun key =>
        (Client.item (.obj fields) key).toOption.isNone) =
      blockRequiredFields.filter fun key => (Client.item (.obj others) key).toOption.isNone :=
    List.filter_congr fun key hkey => by rw [h.item key (List.mem_append_left _ hkey)]
  rw [hmissing, h.candidates]
  simp (disch := decide +kernel) only [h.item]

/-- So are the transactions. -/
theorem SameChecked.transactions (h : SameChecked fields others) (cc : Client.ClientConfig) :
    checkBlockTransactions cc (.obj fields) = checkBlockTransactions cc (.obj others) := by
  unfold checkBlockTransactions
  rw [h.blockTxCount]
  simp (disch := decide +kernel) only [h.get, h.fieldOr]

/-- The checks look at nothing else. -/
theorem SameChecked.passes (h : SameChecked fields others) (cc : Client.ClientConfig) :
    Passes cc (.obj fields) ↔ Passes cc (.obj others) := by
  unfold Passes
  rw [h.validate, h.transactions]

end

/-! ## The merge -/

/-- The header has no checked field outside the set. -/
def Within (names : List String) (payload : Value) : Prop :=
  ∀ key ∈ checkedFields, carries payload key = true → key ∈ names

/-- The proposal has all the fields of the set. -/
def CoversFields (names : List String) (payload : Value) : Prop :=
  ∀ key ∈ names, carries payload key = true

/-- An object carries the keys it has. -/
theorem carries_obj (fields : List (String × Value)) (key : String) :
    carries (.obj fields) key = (fields.lookup key).isSome := by
  unfold carries Client.item
  dsimp only
  cases fields.lookup key <;> rfl

/-- Without the fields that the others have, the rest of the fields are found as before. -/
theorem lookup_filter_none (fields others : List (String × Value)) {key : String}
    (h : others.lookup key = none) :
    (fields.filter fun f => (others.lookup f.1).isNone).lookup key = fields.lookup key := by
  induction fields with
  | nil => rfl
  | cons f rest ih =>
    obtain ⟨name, value⟩ := f
    by_cases heq : key = name
    · rw [← heq, List.filter_cons_of_pos (by simp [h]), List.lookup_cons_self,
        List.lookup_cons_self]
    · rw [Sql.Table.lookup_cons_ne heq]
      rw [List.filter_cons]
      split
      · rw [Sql.Table.lookup_cons_ne heq]
        exact ih
      · exact ih

/-- A header within the set and a proposal that covers it are merged to the checked fields of the
proposal. -/
theorem sameChecked_merge {names : List String} {fields others : List (String × Value)}
    (hwithin : Within names (.obj fields)) (hcovers : CoversFields names (.obj others)) :
    SameChecked (others ++ fields.filter fun f => (others.lookup f.1).isNone) others := by
  intro key hkey
  rw [List.lookup_append]
  cases hfound : others.lookup key with
  | some value => rfl
  | none =>
    rw [Option.none_or, lookup_filter_none fields others hfound]
    -- a field of the header would be in the set, and the proposal would have it
    refine Option.not_isSome_iff_eq_none.mp fun hsome => ?_
    have hmem := hwithin key hkey ((carries_obj fields key).trans hsome)
    have hother := (carries_obj others key).symm.trans (hcovers key hmem)
    rw [hfound] at hother
    cases hother

/-- Only an object has a hash. -/
theorem exists_obj_of_passes {cc : Client.ClientConfig} {payload : Value}
    (h : Passes cc payload) : ∃ fields, payload = .obj fields := by
  obtain ⟨hvalid, -⟩ := h
  cases payload with
  | obj fields => exact ⟨fields, rfl⟩
  | null => cases hvalid
  | bool b => cases hvalid
  | int i => cases hvalid
  | float x => cases hvalid
  | str text => cases hvalid
  | arr items => cases hvalid

/-- A header and a proposal that pass give a merged block that passes. -/
theorem Passes.merge {cc : Client.ClientConfig} {names : List String} {header proposal : Value}
    (hheader : Passes cc header) (hproposal : Passes cc proposal) (hwithin : Within names header)
    (hcovers : CoversFields names proposal) : Passes cc (mergeFields header proposal) := by
  obtain ⟨fields, rfl⟩ := exists_obj_of_passes hheader
  obtain ⟨others, rfl⟩ := exists_obj_of_passes hproposal
  exact ((sameChecked_merge hwithin hcovers).passes cc).mpr hproposal

/-! ## The invariant -/

/-- The block hash that a proposal names. -/
def Names (blockHash : String) (payload : Value) : Prop :=
  ((Client.get payload "block_hash").toOption.any fun hash =>
    Client.sameValue hash (.str blockHash)) = true

section

-- the block, and the checked fields that its headers may have
variable (cc : Client.ClientConfig) (blockHash : String) (names : List String)

def HonestHeader (payload : Value) : Prop := Passes cc payload ∧ Within names payload

def HonestProposal (payload : Value) : Prop :=
  Names blockHash payload → Passes cc payload ∧ CoversFields names payload

/-- The payloads that are stored for the block. -/
structure Undisplaced (n : ImportNode σ) : Prop where
  header : ∀ row, n.headers.find? blockHash = some row → HonestHeader cc names row.payload
  proposal : ∀ row, n.proposals.find? blockHash = some row →
    HonestProposal cc blockHash names row.payload

/-- A header that names the block passes the checks and has no field outside the set. -/
def HonestImport (call : ImportCall) : Prop :=
  match call with
  | .receive block => headerHash block "block_hash" = .ok blockHash → HonestHeader cc names block
  | .replay _ => True
  | .reorg _ _ => True

/-- So does every header of the peers that a proposal is completed with, and a proposal that names
the block has matching transactions and all the fields of the set. -/
def Honest (vc : VotingConfig σ) (call : ConsensusCall σ) : Prop :=
  match call with
  | .propose block _ sync =>
    (∀ normalized, vc.normalizeBlock block = .ok normalized → Names blockHash normalized →
      checkBlockTransactions cc normalized = .ok () ∧ CoversFields names normalized) ∧
    ∀ c ∈ sync, HonestImport cc blockHash names c.2
  | .receive call => HonestImport cc blockHash names call
  | .vote _ => True
  | .finalize _ => True
  | .services _ _ => True

end

variable {cc : Client.ClientConfig} {blockHash : String} {names : List String}

/-- The payload that the replay takes for the header. -/
theorem Undisplaced.replayPayload {n : ImportNode σ} (h : Undisplaced cc blockHash names n)
    {row : HeaderRow} (hrow : n.headers.find? blockHash = some row) :
    Passes cc (Picoin.replayPayload n blockHash row.payload) := by
  obtain ⟨hpasses, hwithin⟩ := h.header row hrow
  unfold Picoin.replayPayload
  split
  · exact hpasses
  · next proposal hproposal =>
    dsimp only
    split
    · next hmerged =>
      obtain ⟨hvalid, hcovers⟩ := h.proposal proposal hproposal hmerged.2
      exact hpasses.merge hvalid hwithin hcovers
    · exact hpasses

/-! ## One call -/

/-- It depends on the payloads of the two rows only. -/
theorem Undisplaced.congr {n n' : ImportNode σ} (h : Undisplaced cc blockHash names n)
    (hheaders : (n'.headers.find? blockHash).map HeaderRow.payload =
      (n.headers.find? blockHash).map HeaderRow.payload)
    (hproposals : (n'.proposals.find? blockHash).map ProposalRow.payload =
      (n.proposals.find? blockHash).map ProposalRow.payload) :
    Undisplaced cc blockHash names n' := by
  refine ⟨fun row hrow => ?_, fun row hrow => ?_⟩
  · rw [hrow, Option.map_some] at hheaders
    obtain ⟨old, hold, hpayload⟩ := Option.map_eq_some_iff.mp hheaders.symm
    rw [← hpayload]
    exact h.header old hold
  · rw [hrow, Option.map_some] at hproposals
    obtain ⟨old, hold, hpayload⟩ := Option.map_eq_some_iff.mp hproposals.symm
    rw [← hpayload]
    exact h.proposal old hold

/-- What is stored for the block is read off what the imports keep. -/
theorem Undisplaced.of_kept {n n' : ImportNode σ} (h : Undisplaced cc blockHash names n)
    (hkept : kept n' = kept n) : Undisplaced cc blockHash names n' := by
  obtain ⟨hheaders, hrest⟩ := Prod.mk.inj hkept
  obtain ⟨hproposals, -⟩ := Prod.mk.inj hrest
  refine h.congr ?_ ?_
  · have hlookup := congrArg (List.lookup blockHash) hheaders
    unfold headerPayloads at hlookup
    rw [Sql.Table.lookup_mapRows fun _ => HeaderRow.payload,
      Sql.Table.lookup_mapRows fun _ => HeaderRow.payload] at hlookup
    exact hlookup
  · have hlookup := congrArg (fun l => (List.lookup blockHash l).map Prod.snd) hproposals
    unfold proposalPayloads at hlookup
    rw [Sql.Table.lookup_mapRows fun k (row : ProposalRow) => (row.subject k, row.payload),
      Sql.Table.lookup_mapRows fun k (row : ProposalRow) => (row.subject k, row.payload),
      Option.map_map, Option.map_map] at hlookup
    exact hlookup

/-- An honest import preserves it. -/
theorem Undisplaced.importCall {ic : ImportConfig σ} {n : ImportNode σ}
    {call : String × ImportCall} (h : Undisplaced cc blockHash names n)
    (hcall : HonestImport cc blockHash names call.2) :
    Undisplaced cc blockHash names (ImportCall.step ic n call) := by
  obtain ⟨now, call⟩ := call
  cases call with
  | receive block =>
    refine attempt_of h fun n' hreceive => ?_
    obtain ⟨receivedHash, row, hhash, hpayload, rfl⟩ := receiveBlockHeader_eq_ok hreceive
    refine ⟨fun found hfound => ?_, h.proposal⟩
    change (n.headers.upsert receivedHash row).find? blockHash = some found at hfound
    rw [Sql.Table.find?_upsert] at hfound
    split at hfound
    · next heq =>
      cases hfound
      rw [hpayload]
      exact hcall (heq ▸ hhash)
    · exact h.header found hfound
  | replay limit => exact h.of_kept (kept_replay ic now limit n)
  | reorg limit maxDepth =>
    exact attempt_of h fun n' hreorg => h.of_kept (kept_reorg hreorg)

/-- So do several. -/
theorem Undisplaced.importCalls {ic : ImportConfig σ} :
    ∀ (calls : List (String × ImportCall)) {n : ImportNode σ},
      Undisplaced cc blockHash names n → (∀ c ∈ calls, HonestImport cc blockHash names c.2) →
        Undisplaced cc blockHash names (calls.foldl (ImportCall.step ic) n)
  | [], _, h, _ => h
  | call :: calls, _, h, hcalls =>
    Undisplaced.importCalls calls (h.importCall (hcalls call List.mem_cons_self))
      fun c hc => hcalls c (List.mem_cons_of_mem _ hc)

/-- A row of a proposal is written again, with its payload. -/
theorem Undisplaced.modifyProposal {n : ImportNode σ} (h : Undisplaced cc blockHash names n)
    (writtenHash : String) {f : ProposalRow → ProposalRow}
    (hf : ∀ row, (f row).payload = row.payload) :
    Undisplaced cc blockHash names
      { n with proposals := n.proposals.modify writtenHash f } :=
  h.congr rfl (Sql.Table.map_find?_modify n.proposals writtenHash hf blockHash)

/-- A proposal is recorded with an honest payload. -/
theorem Undisplaced.record {n n' : VotingNode σ}
    (h : Undisplaced cc blockHash names n.toImportNode) {proposalId recordedHash : String}
    {proposerNodeId : String} {row : ProposalRow}
    (hrecord : recordProposal n proposalId recordedHash proposerNodeId row = .ok n')
    (hhonest : HonestProposal cc blockHash names row.payload) :
    Undisplaced cc blockHash names n'.toImportNode := by
  unfold recordProposal at hrecord
  split at hrecord
  · next storedHash stored hstored =>
    cases hrecord
    refine ⟨h.header, fun found hfound => ?_⟩
    dsimp only at hfound
    rw [Sql.Table.find?_modify] at hfound
    split at hfound
    · obtain ⟨old, -, rfl⟩ := Option.map_eq_some_iff.mp hfound
      exact hhonest
    · exact h.proposal found hfound
  · split at hrecord
    · cases hrecord
    next proposals hinsert =>
    cases hrecord
    obtain ⟨-, rfl⟩ := Sql.Table.insert?_eq_some_iff.mp hinsert
    refine ⟨h.header, fun found hfound => ?_⟩
    dsimp only at hfound
    rw [Sql.Table.find?_upsert] at hfound
    split at hfound
    · cases hfound
      exact hhonest
    · exact h.proposal found hfound

/-- A proposal preserves it. -/
theorem Undisplaced.propose {vc : VotingConfig σ}
    (hhash : vc.validateBlockHash = validateBlockHash cc) {now : String} {n n' : VotingNode σ} {block : Value} {proposerNodeId : String}
    {sync : List (String × ImportCall)} (h : Undisplaced cc blockHash names n.toImportNode)
    (hcall : Honest cc blockHash names vc (.propose block proposerNodeId sync))
    (hpropose : proposeBlock vc now n block proposerNodeId sync = .ok n') :
    Undisplaced cc blockHash names n'.toImportNode := by
  obtain ⟨hproposal, hsync⟩ := hcall
  obtain ⟨normalized, hnormalized, hpropose⟩ := bind_eq_ok.mp hpropose
  obtain ⟨_, hvalid, hpropose⟩ := bind_eq_ok.mp hpropose
  rw [hhash] at hvalid
  obtain ⟨recordedHash, -, hpropose⟩ := bind_eq_ok.mp hpropose
  obtain ⟨height, -, hpropose⟩ := bind_eq_ok.mp hpropose
  obtain ⟨previousHash, -, hpropose⟩ := bind_eq_ok.mp hpropose
  obtain ⟨status, -, hpropose⟩ := bind_eq_ok.mp hpropose
  obtain ⟨n₁, hrecord, hpropose⟩ := bind_eq_ok.mp hpropose
  have hrecorded := h.record hrecord fun hnames =>
    have ⟨htransactions, hcovers⟩ := hproposal normalized hnormalized hnames
    ⟨⟨hvalid, htransactions⟩, hcovers⟩
  split at hpropose
  · cases hpropose
    exact (hrecorded.importCalls sync hsync).of_kept (kept_promote _ _ _)
  · cases hpropose
    exact hrecorded

/-- A finalization imports the block of a proposal. -/
theorem Undisplaced.finalize {vc : VotingConfig σ} {now proposalId : String} {n n' : VotingNode σ}
    (h : Undisplaced cc blockHash names n.toImportNode)
    (hfinalize : finalizeProposal vc now n proposalId = .ok n') :
    Undisplaced cc blockHash names n'.toImportNode := by
  unfold finalizeProposal at hfinalize
  split at hfinalize
  · cases hfinalize
  next finalizedHash proposal hproposal =>
  split at hfinalize
  · cases hfinalize
    exact h
  split at hfinalize
  · cases hfinalize
  dsimp only at hfinalize
  split at hfinalize
  · cases hfinalize
  obtain ⟨⟨m, imported⟩, himport, hfinalize⟩ := bind_eq_ok.mp hfinalize
  cases hfinalize
  have himported := h.of_kept (kept_import himport)
  have hpromoted : Undisplaced cc blockHash names
      (if imported then promoteReadyProposals vc.toConfig now m else m) := by
    split
    · exact himported.of_kept (kept_promote _ _ _)
    · exact himported
  exact hpromoted.modifyProposal finalizedHash fun _ => rfl

/-- So does a vote. -/
theorem Undisplaced.vote {vc : VotingConfig σ} {now : String} {n n' : VotingNode σ}
    {request : VoteRequest} (h : Undisplaced cc blockHash names n.toImportNode)
    (hvote : voteOnProposal vc now n request = .ok n') :
    Undisplaced cc blockHash names n'.toImportNode := by
  obtain ⟨⟨votedHash, proposal⟩, -, hvote⟩ := bind_eq_ok.mp hvote
  have hrecorded : Undisplaced cc blockHash names
      (recordConsensusVote n (request.vote votedHash)).toImportNode := h.congr rfl rfl
  dsimp only at hvote
  split at hvote
  · exact hrecorded.finalize hvote
  split at hvote
  · cases hvote
    exact hrecorded.modifyProposal votedHash fun _ => rfl
  · cases hvote
    exact hrecorded

/-- A call that raises is rolled back. -/
theorem Undisplaced.attempt {x : Except ImportError (VotingNode σ)} {n : VotingNode σ}
    (h : Undisplaced cc blockHash names n.toImportNode)
    (hx : ∀ n', x = .ok n' → Undisplaced cc blockHash names n'.toImportNode) :
    Undisplaced cc blockHash names (Run.attempt x n).toImportNode := by
  cases x with
  | ok n' => exact hx n' rfl
  | error e => exact h

/-- One call. -/
theorem Undisplaced.step {vc : VotingConfig σ} (hhash : vc.validateBlockHash = validateBlockHash cc)
    {n : VotingNode σ} {call : String × ConsensusCall σ}
    (h : Undisplaced cc blockHash names n.toImportNode)
    (hcall : Honest cc blockHash names vc call.2) :
    Undisplaced cc blockHash names (ConsensusCall.step vc n call).toImportNode := by
  obtain ⟨now, call⟩ := call
  cases call with
  | propose block proposerNodeId sync =>
    exact h.attempt fun n' hpropose => h.propose hhash hcall hpropose
  | vote request => exact h.attempt fun n' hvote => h.vote hvote
  | finalize proposalId => exact h.attempt fun n' hfinalize => h.finalize hfinalize
  | receive importCall => exact h.importCall hcall
  | services validatorKeys tables => exact h.congr rfl rfl

/-- In a run whose messages about the block are honest, a queued header is replayed with a payload
that passes the checks, for as long as it is queued. -/
theorem passes_of_run (cc : Client.ClientConfig) (vc : VotingConfig σ)
    (hhash : vc.validateBlockHash = validateBlockHash cc) (blockHash : String)
    (names : List String) (n : VotingNode σ)
    (hstart : Undisplaced cc blockHash names n.toImportNode)
    (calls : List (String × ConsensusCall σ))
    (hcalls : ∀ call ∈ calls, Honest cc blockHash names vc call.2) :
    ∀ n' ∈ states (ConsensusCall.step vc) n calls, ∀ row,
      n'.headers.find? blockHash = some row → row.status.waits = true →
        Passes cc (replayPayload n'.toImportNode blockHash row.payload) := by
  intro n' hn' row hrow _
  have hstep : ∀ (m : VotingNode σ) (call : String × ConsensusCall σ),
      Undisplaced cc blockHash names m.toImportNode → Honest cc blockHash names vc call.2 →
        Undisplaced cc blockHash names (ConsensusCall.step vc m call).toImportNode :=
    fun m call h hcall => h.step hhash hcall
  have hinvariant := invariant_of_eachStep hstep calls n hstart
    (eachStep_of_forall calls n hcalls) n' hn'
  exact hinvariant.replayPayload hrow

/-! ## A local block -/

/-- A check returns exactly if it passes. -/
theorem returns_unit {ε : Type} {x : Except ε Unit} :
    returns x (fun _ => true) = true ↔ x = .ok () := by
  cases x with
  | ok _ => exact ⟨fun _ => rfl, fun _ => rfl⟩
  | error e => exact ⟨fun h => (nomatch h), fun h => (nomatch h)⟩

/-- The checks of a payload can be run. -/
instance (cc : Client.ClientConfig) (payload : Value) : Decidable (Passes cc payload) :=
  decidable_of_iff (returns (validateBlockHash cc payload) (fun _ => true) = true ∧
    returns (checkBlockTransactions cc payload) (fun _ => true) = true)
    (and_congr returns_unit returns_unit)

/-- The local client, with a hash function that has one value. -/
def localHashClient : Client.ClientConfig :=
  { Client.localClient with sha256Text := fun _ => localDigest }

/-- The local network, with the check of the block hash. -/
def localHashes : VotingConfig (Sql.Table String ConsensusValidatorRow) :=
  { localConsensus with
    toClientConfig := localHashClient
    validateBlockHash := validateBlockHash localHashClient }

/-- The first block, under its hash. -/
def localHashedBlock : Value :=
  .obj [("algorithm", .str "bbp_hex_v1"), ("block_hash", .str localDigest), ("height", .int 1),
    ("miner_id", .str "miner-1"), ("previous_hash", .str legacyZeroGenesisHash),
    ("range_end", .int 64), ("range_start", .int 1), ("result_hash", .str "result-1"),
    ("reward", .float 314160000), ("samples", .arr []),
    ("timestamp", .str "2026-05-10T00:00:00+00:00")]

/-- The first block without what its hash is made of. -/
def localBareHeader : Value :=
  .obj [("block_hash", .str localDigest), ("height", .int 1),
    ("previous_hash", .str legacyZeroGenesisHash), ("timestamp", .str "2026-05-10T00:00:00+00:00")]

def localReceive (block : Value) :
    String × ConsensusCall (Sql.Table String ConsensusValidatorRow) :=
  ("2026-05-10T00:00:00+00:00", .receive (.receive block))

/-- The first block is received and proposed. -/
def localQueueCalls : List (String × ConsensusCall (Sql.Table String ConsensusValidatorRow)) :=
  [localReceive localHashedBlock,
    ("2026-05-10T00:00:00+00:00", .propose localHashedBlock "miner-node-1" [])]

/-- The block that is received and proposed with all its fields is replayed with a payload that
passes the checks. -/
theorem passes_local :
    ∃ row, (localQueueCalls.foldl (ConsensusCall.step localHashes)
        (localConsensusNode [])).headers.find? localDigest = some row ∧
      Passes localHashClient (replayPayload (localQueueCalls.foldl
        (ConsensusCall.step localHashes) (localConsensusNode [])).toImportNode localDigest
          row.payload) := by
  have hqueued : ((localQueueCalls.foldl (ConsensusCall.step localHashes)
      (localConsensusNode [])).headers.find? localDigest).any (fun row => row.status.waits) =
        true := by
    decide +kernel
  obtain ⟨row, hrow, hwaits⟩ := (Option.any_eq_true _ _).mp hqueued
  have hpasses : Passes localHashClient localHashedBlock := by decide +kernel
  have hwithin : Within blockRequiredFields localHashedBlock := by
    unfold Within
    decide +kernel
  have hcovers : CoversFields blockRequiredFields localHashedBlock := by
    unfold CoversFields
    decide +kernel
  have hhonest : ∀ call ∈ localQueueCalls,
      Honest localHashClient localDigest blockRequiredFields localHashes call.2 := by
    intro call hcall
    rcases List.mem_cons.mp hcall with rfl | hcall
    · exact fun _ => ⟨hpasses, hwithin⟩
    · rw [List.mem_singleton.mp hcall]
      refine ⟨fun normalized hnormalized _ => ?_, fun c hc => (nomatch hc)⟩
      cases hnormalized
      exact ⟨hpasses.2, hcovers⟩
  refine ⟨row, hrow, passes_of_run localHashClient localHashes rfl localDigest blockRequiredFields
    (localConsensusNode []) ⟨fun _ h => (nomatch h), fun _ h => (nomatch h)⟩ localQueueCalls
    hhonest _ (foldl_mem_states _ _ _) row hrow hwaits⟩

/-- The first block is queued with a payload that passes the checks. A peer sends a header with its
hash and without its other fields, and the payload that is replayed does not pass them. -/
theorem displaced_header :
    let queued := ConsensusCall.step localHashes (localConsensusNode [])
      (localReceive localHashedBlock)
    let displaced := ConsensusCall.step localHashes queued (localReceive localBareHeader)
    (∃ row, queued.headers.find? localDigest = some row ∧ row.status.waits = true ∧
      Passes localHashClient row.payload) ∧
    ∃ row, displaced.headers.find? localDigest = some row ∧ row.status.waits = true ∧
      ¬Passes localHashClient (replayPayload displaced.toImportNode localDigest row.payload) := by
  intro queued displaced
  have hqueued : (queued.headers.find? localDigest).any (fun row =>
      row.status.waits && decide (Passes localHashClient row.payload)) = true := by
    decide +kernel
  have hdisplaced : (displaced.headers.find? localDigest).any (fun row =>
      row.status.waits && !decide (Passes localHashClient
        (replayPayload displaced.toImportNode localDigest row.payload))) = true := by
    decide +kernel
  obtain ⟨row, hrow, hpasses⟩ := (Option.any_eq_true _ _).mp hqueued
  obtain ⟨row', hrow', hfails⟩ := (Option.any_eq_true _ _).mp hdisplaced
  rw [Bool.and_eq_true] at hpasses hfails
  rw [Bool.not_eq_true', decide_eq_false_iff_not] at hfails
  exact ⟨⟨row, hrow, hpasses.1, of_decide_eq_true hpasses.2⟩, row', hrow', hfails⟩

end Picoin
