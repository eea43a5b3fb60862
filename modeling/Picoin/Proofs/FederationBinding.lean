import Picoin.Forge.Federation
import Picoin.Lib.JsonScan
import Picoin.Lib.Outcome
import Picoin.Lib.Table
import Picoin.Proofs.ChallengeAccounts
import Picoin.Proofs.EpochRewards

/-!
# What the hash of a federation binds

The published hash is one of the previews' hashes, and a preview's hash is compared with the one of the
settlement that was received. So the hash binds the settlements, as far as the hash of a row is the one of
its preview. A row that has a `payload_hash` of its own is hashed with that one and checked with the
preview's (`wallet_changed`).

* **`accepted_inv`**, **`accepted_of`** — what the checks of an accepted manifest have found;
* **`previewHash_inj`** — a preview's hash binds the settlement;
* **`hidden_settlement`** — any settlement can be put into a row that has hashes of its own;
* **`federation_binds_iff`** — what the published hash binds, exactly.
-/

namespace Picoin.Forge.Coordinator

open Json

/-! ## Texts that are hashed -/

section

variable {fc : ForgeConfig} (hsha : Function.Injective fc.sha256Text)
include hsha

/-- Values with the same hash have the same text. -/
theorem render_eq_of_hashJson_eq {v w : Value} (h : fc.hashJson v = fc.hashJson w) :
    render v = render w :=
  String.ofList_inj.mp (hsha h)

/-- The hash of a preview binds the settlement, up to what is not in the preview. -/
theorem previewHash_inj {s s' : EpochSettlement} (h : previewHash fc s = previewHash fc s') :
    s.epochId = s'.epochId ∧ s.epochReward = s'.epochReward ∧
      render (.arr (s.workers.map epochRewardJson)) = render (.arr (s'.workers.map epochRewardJson)) := by
  have hrender := render_eq_of_hashJson_eq hsha h
  have hnodup : (["schema_version", "payload_type", "epoch_id", "epoch_reward", "total_verified_compute",
      "worker_count", "settlement_result_hash", "worker_rewards", "signatures",
      "no_l1_transaction_created"] : List String).Nodup := by decide
  unfold previewPayload at hrender
  have hfield := render_field_eq hrender hnodup
  refine ⟨render_int_inj ?_, render_float_inj ?_, ?_⟩
  · exact hfield "epoch_id" _ _ (by simp) (by simp)
  · exact hfield "epoch_reward" _ _ (by simp) (by simp)
  · exact hfield "worker_rewards" _ _ (by simp) (by simp)

end

/-- The text of an entry determines the entry. -/
theorem epochRewardJson_inj {a b : EpochReward} (h : render (epochRewardJson a) = render (epochRewardJson b)) :
    a = b := by
  have hnodup : (["worker_id", "wallet", "verified_compute_score", "reward_pi"] : List String).Nodup := by
    decide
  unfold epochRewardJson at h
  have hfield := render_field_eq h hnodup
  have hworker := hfield "worker_id" (.str a.workerId) (.str b.workerId) (by simp) (by simp)
  have hwallet := hfield "wallet" (.str a.wallet) (.str b.wallet) (by simp) (by simp)
  have hscore := hfield "verified_compute_score" (.float a.verifiedComputeScore)
    (.float b.verifiedComputeScore) (by simp) (by simp)
  have hreward := hfield "reward_pi" (.float a.rewardPi) (.float b.rewardPi) (by simp) (by simp)
  cases a
  cases b
  rw [EpochReward.mk.injEq]
  exact ⟨render_str_inj hworker, render_str_inj hwallet, render_float_inj hscore,
    render_float_inj hreward⟩

/-- The text of the rewards determines them. -/
theorem epochRewards_inj {a b : List EpochReward}
    (h : render (.arr (a.map epochRewardJson)) = render (.arr (b.map epochRewardJson))) : a = b := by
  have hitems := render_arr_forall₂ h
  rw [List.forall₂_map_left_iff, List.forall₂_map_right_iff] at hitems
  rw [← List.forall₂_eq_eq_eq]
  exact hitems.imp fun _ _ hab => epochRewardJson_inj hab

/-! ## Accepted manifests -/

/-- `verify_federated_manifest(manifest)["valid"]`. -/
def ManifestAccepted (cfg : FederationConfig) (manifest : Fields) : Prop :=
  ∃ report, verifyFederatedManifest cfg manifest = .ok report ∧ report.valid = true

/-- The settlement of a row that has passed its checks. -/
structure Settled (cfg : FederationConfig) (row : Fields) (settlement : EpochSettlement) : Prop where
  validated : ∃ value, row.lookup "settlement" = some value ∧ cfg.modelValidate value = .ok settlement
  preview : nestedGet row "l1_preview" "payload_hash" = .str (previewHash cfg.toForgeConfig settlement)

/-- A field that is compared with a text is that text. -/
theorem eq_str_of_isText {value : Option Value} {text : String} (h : isText value text = true) :
    value = some (.str text) := by
  unfold isText at h
  split at h
  · rw [of_decide_eq_true h]
  · cases h

/-- A row that passes is settled. -/
theorem checkRow_spec {cfg : FederationConfig} {row : Fields} {check : Option CoordinatorCheck}
    (h : checkRow cfg row = .ok ([], check)) : ∃ settlement, Settled cfg row settlement := by
  unfold checkRow at h
  dsimp only at h
  cases hvalue : row.lookup "settlement" with
  | none => rw [hvalue] at h; cases h
  | some value =>
    rw [hvalue] at h
    dsimp only at h
    cases hvalidate : cfg.modelValidate value with
    | error e => rw [hvalidate] at h; cases h
    | ok settlement =>
      rw [hvalidate] at h
      dsimp only at h
      split at h
      -- no error means that both comparisons held; only the first is needed
      · rename_i preview hpreview
        obtain ⟨herrors, -⟩ := Prod.mk.inj (Except.ok.inj h)
        obtain ⟨hmatches, -⟩ := List.append_eq_nil_iff.mp herrors
        split at hmatches
        · rename_i hpayload
          refine ⟨settlement, ⟨value, hvalue, hvalidate⟩, ?_⟩
          unfold nestedGet
          rw [hpreview]
          show (preview.lookup "payload_hash").getD .null = _
          rw [eq_str_of_isText hpayload]
          rfl
        · cases hmatches
      · cases h

/-- A coordinator that passes is a settled row. -/
theorem checkCoordinator_spec {cfg : FederationConfig} {value : Value}
    {check : Option CoordinatorCheck} (h : checkCoordinator cfg value = .ok ([], check)) :
    ∃ row settlement, value = .obj row ∧ Settled cfg row settlement := by
  cases value with
  | obj row =>
    obtain ⟨settlement, hsettled⟩ := checkRow_spec h
    exact ⟨row, settlement, rfl, hsettled⟩
  | _ => cases h

/-- Values that are settled rows are rows. -/
theorem exists_fields {cfg : FederationConfig} {values : List Value}
    (h : ∀ value ∈ values, ∃ row settlement, value = .obj row ∧ Settled cfg row settlement) :
    ∃ rows : List Fields, values = rows.map .obj ∧ ∀ row ∈ rows, ∃ settlement, Settled cfg row settlement := by
  induction values with
  | nil => exact ⟨[], rfl, fun row hrow => absurd hrow List.not_mem_nil⟩
  | cons value rest ih =>
    obtain ⟨row, settlement, rfl, hsettled⟩ := h _ List.mem_cons_self
    obtain ⟨rows, rfl, hrows⟩ := ih fun v hv => h v (List.mem_cons_of_mem _ hv)
    refine ⟨row :: rows, rfl, fun r hr => ?_⟩
    rcases List.mem_cons.mp hr with rfl | hr
    · exact ⟨settlement, hsettled⟩
    · exact hrows r hr

/-- What the checks of an accepted manifest have found. -/
theorem accepted_inv {cfg : FederationConfig} {manifest : Fields} (h : ManifestAccepted cfg manifest) :
    ∃ values, manifestRows manifest = some values ∧
      (∀ value ∈ values, ∃ check, checkCoordinator cfg value = .ok ([], check)) ∧
      manifest.lookup "federation_result_hash" =
        some (.str (cfg.hashJson (federationHashPayload manifest values))) ∧
      intOrZero cfg (manifest.get "coordinator_count") = .ok (values.length : ℤ) := by
  obtain ⟨report, hreport, hvalid⟩ := h
  unfold verifyFederatedManifest at hreport
  cases hvalues : manifestRows manifest with
  | none =>
    rw [hvalues] at hreport
    cases hreport
    cases hvalid
  | some values =>
    rw [hvalues] at hreport
    obtain ⟨checks, hchecks, hreport⟩ := Outcome.bind_eq_ok.mp hreport
    obtain ⟨count, hcount, hreport⟩ := Outcome.bind_eq_ok.mp hreport
    cases hreport
    -- the errors of the rows, of the hash and of the count are all none
    obtain ⟨herrors, hlength⟩ := List.append_eq_nil_iff.mp (List.isEmpty_iff.mp hvalid)
    obtain ⟨hrowErrors, hroot⟩ := List.append_eq_nil_iff.mp herrors
    refine ⟨values, rfl, fun value hmem => ?_, ?_, ?_⟩
    · obtain ⟨⟨errors, check⟩, hcheck, hresult⟩ :=
        exists_of_forall₂ (Outcome.forall₂_of_mapM hchecks) hmem
      have hnone : errors = [] :=
        List.flatten_eq_nil_iff.mp hrowErrors errors (List.mem_map_of_mem hcheck)
      rw [hnone] at hresult
      exact ⟨check, hresult⟩
    · split at hroot
      · rename_i hmatches
        exact eq_str_of_isText hmatches
      · cases hroot
    · split at hlength
      · rename_i heq
        rw [hcount, heq]
      · cases hlength

/-- Every row of an accepted manifest is settled, and its hash is the one that is published. -/
theorem accepted_spec {cfg : FederationConfig} {manifest : Fields} (h : ManifestAccepted cfg manifest) :
    ∃ rows : List Fields, manifestRows manifest = some (rows.map .obj) ∧
      (∀ row ∈ rows, ∃ settlement, Settled cfg row settlement) ∧
      manifest.lookup "federation_result_hash" =
        some (.str (cfg.hashJson (federationHashPayload manifest (rows.map .obj)))) := by
  obtain ⟨values, hvalues, hchecks, hroot, -⟩ := accepted_inv h
  have hsettled : ∀ value ∈ values, ∃ row settlement, value = .obj row ∧ Settled cfg row settlement := by
    intro value hmem
    obtain ⟨check, hcheck⟩ := hchecks value hmem
    exact checkCoordinator_spec hcheck
  obtain ⟨rows, rfl, hrows⟩ := exists_fields hsettled
  exact ⟨rows, hvalues, hrows, hroot⟩

/-! ## Binding -/

/-- The row is hashed with its preview's payload hash. -/
def PreviewHashed (row : Fields) : Prop :=
  coordinatorPayloadHash row = nestedGet row "l1_preview" "payload_hash"

def PreviewsHashed (manifest : Fields) : Prop :=
  ∀ values, manifestRows manifest = some values → ∀ row, .obj row ∈ values → PreviewHashed row

/-- Where the first manifest has a row that is hashed with its preview's hash, so has the second. -/
def HashedAlike (manifest manifest' : Fields) : Prop :=
  ∀ values values', manifestRows manifest = some values → manifestRows manifest' = some values' →
    ∀ row row', (.obj row, .obj row') ∈ values.zip values' → PreviewHashed row → PreviewHashed row'

/-- Two rows are of one coordinator, and their settlements pay the same. The ids may be any values; they
are the same if they are written in the same way. -/
def SameSettlements (cfg : FederationConfig) (value value' : Value) : Prop :=
  ∃ row row' s s', value = .obj row ∧ value' = .obj row' ∧
    canonicalJson (Fields.get row "coordinator_id") = canonicalJson (Fields.get row' "coordinator_id") ∧
    Settled cfg row s ∧ Settled cfg row' s' ∧
    s.epochId = s'.epochId ∧ s.epochReward = s'.epochReward ∧ s.workers = s'.workers

/-- The manifests list the same coordinators in the same order, with the same settlements. -/
def SameFederation (cfg : FederationConfig) (manifest manifest' : Fields) : Prop :=
  ∃ values values', manifestRows manifest = some values ∧ manifestRows manifest' = some values' ∧
    List.Forall₂ (SameSettlements cfg) values values'

/-- The hashed payload of a coordinator determines its columns. -/
theorem coordinatorPayload_inj {a b c d a' b' c' d' : Value}
    (h : render (coordinatorPayload a b c d) = render (coordinatorPayload a' b' c' d')) :
    render a = render a' ∧ render c = render c' := by
  have hnodup : (["coordinator_id", "settlement_result_hash", "payload_hash", "workers_created"] :
      List String).Nodup := by decide
  have hfield := render_field_eq h hnodup
  exact ⟨hfield "coordinator_id" _ _ (by simp) (by simp), hfield "payload_hash" _ _ (by simp) (by simp)⟩

/-- The hashed payload of a manifest determines its rows. -/
theorem federationPayload_inj {a b c d a' b' c' d' : Value} {rows rows' : List Value}
    (h : render (federationPayload a b c d rows) = render (federationPayload a' b' c' d' rows')) :
    List.Forall₂ (fun v w => render v = render w) rows rows' := by
  have hnodup : (["schema_version", "coordinator_count", "workers_per_coordinator",
      "epoch_reward_per_coordinator", "coordinators"] : List String).Nodup := by decide
  exact render_arr_forall₂ (render_field_eq h hnodup "coordinators" _ _ (by simp) (by simp))

/-- Each row has its payload. -/
theorem filterMap_rowPayload? (rows : List Fields) :
    (rows.map Value.obj).filterMap rowPayload? = rows.map rowPayload := by
  induction rows with
  | nil => rfl
  | cons row rest ih =>
    rw [List.map_cons, List.map_cons, ← ih]
    rfl

/-- Rows that are hashed alike are bound, if they are hashed with their previews' hashes. -/
theorem sameSettlements_of_payload {cfg : FederationConfig} (hsha : Function.Injective cfg.sha256Text)
    {row row' : Fields} {s s' : EpochSettlement} (hs : Settled cfg row s) (hs' : Settled cfg row' s')
    (hhashed : PreviewHashed row) (hhashed' : PreviewHashed row')
    (h : render (rowPayload row) = render (rowPayload row')) :
    SameSettlements cfg (.obj row) (.obj row') := by
  obtain ⟨hid, hpayload⟩ := coordinatorPayload_inj h
  rw [hhashed, hhashed', hs.preview, hs'.preview] at hpayload
  obtain ⟨hepoch, hreward, hworkers⟩ := previewHash_inj hsha (render_str_inj hpayload)
  exact ⟨row, row', s, s', rfl, rfl, congrArg String.ofList hid, hs, hs', hepoch, hreward,
    epochRewards_inj hworkers⟩

/-- Accepted manifests with one published hash, whose rows are hashed with their previews' hashes. -/
theorem sameFederation_of_hash {cfg : FederationConfig} (hsha : Function.Injective cfg.sha256Text)
    {manifest manifest' : Fields} (h : ManifestAccepted cfg manifest)
    (h' : ManifestAccepted cfg manifest')
    (hroot : manifest'.get "federation_result_hash" = manifest.get "federation_result_hash")
    (hhashed : PreviewsHashed manifest) (halike : HashedAlike manifest manifest') :
    SameFederation cfg manifest manifest' := by
  obtain ⟨rows, hrows, hsettled, hpublished⟩ := accepted_spec h
  obtain ⟨rows', hrows', hsettled', hpublished'⟩ := accepted_spec h'
  refine ⟨_, _, hrows, hrows', ?_⟩
  unfold Fields.get at hroot
  rw [hpublished, hpublished'] at hroot
  have hpayloads := federationPayload_inj (render_eq_of_hashJson_eq hsha (Value.str.inj hroot).symm)
  rw [filterMap_rowPayload?, filterMap_rowPayload?, List.forall₂_map_left_iff,
    List.forall₂_map_right_iff] at hpayloads
  rw [List.forall₂_map_left_iff, List.forall₂_map_right_iff]
  -- row by row: equal payloads, and a settlement behind each
  obtain ⟨hlength, hzip⟩ := List.forall₂_iff_zip.mp hpayloads
  refine List.forall₂_iff_zip.mpr ⟨hlength, fun {row row'} hmem => ?_⟩
  obtain ⟨hrow, hrow'⟩ := List.of_mem_zip hmem
  obtain ⟨s, hs⟩ := hsettled row hrow
  obtain ⟨s', hs'⟩ := hsettled' row' hrow'
  have hpreview := hhashed _ hrows row (List.mem_map_of_mem hrow)
  have hboth : (Value.obj row, Value.obj row') ∈ (rows.map Value.obj).zip (rows'.map Value.obj) := by
    rw [List.zip_map]
    exact List.mem_map_of_mem hmem
  exact sameSettlements_of_payload hsha hs hs' hpreview
    (halike _ _ hrows hrows' row row' hboth hpreview) (hzip hmem)

/-! ## Manifests that are accepted -/

/-- A text is itself. -/
theorem isText_str (text : String) : isText (some (.str text)) text = true := decide_eq_true rfl

/-- A row passes its checks with a settlement and the preview of it. -/
theorem checkRow_of {cfg : FederationConfig} {row : Fields} {value : Value} {settlement : EpochSettlement}
    (hvalue : row.lookup "settlement" = some value) (hvalidate : cfg.modelValidate value = .ok settlement)
    (hpreview : row.lookup "l1_preview" = some (.obj (previewJson cfg.toForgeConfig settlement))) :
    ∃ check, checkRow cfg row = .ok ([], check) := by
  unfold checkRow Fields.get
  dsimp only
  rw [hvalue, hpreview]
  dsimp only
  rw [hvalidate]
  show ∃ check, Except.ok (_ ++ _, some _) = Except.ok ([], check)
  have hpayload : isText ((previewJson cfg.toForgeConfig settlement).lookup "payload_hash")
      (previewHash cfg.toForgeConfig settlement) = true := isText_str _
  have hresult : isText ((previewJson cfg.toForgeConfig settlement).lookup "settlement_result_hash")
      settlement.resultHash = true := isText_str _
  rw [hpayload, hresult]
  exact ⟨_, rfl⟩

/-- Where each coordinator passes, all do. -/
theorem exists_checks {cfg : FederationConfig} {values : List Value}
    (h : ∀ value ∈ values, ∃ check, checkCoordinator cfg value = .ok ([], check)) :
    ∃ checks, values.mapM (checkCoordinator cfg) = .ok checks ∧ (checks.map Prod.fst).flatten = [] := by
  induction values with
  | nil => exact ⟨[], rfl, rfl⟩
  | cons value rest ih =>
    obtain ⟨check, hcheck⟩ := h value List.mem_cons_self
    obtain ⟨checks, hchecks, herrors⟩ := ih fun v hv => h v (List.mem_cons_of_mem _ hv)
    refine ⟨([], check) :: checks, ?_, herrors⟩
    rw [List.mapM_cons, hcheck, hchecks]
    rfl

/-- A manifest is accepted if its rows pass, its hash is the one it says, and the count is right. -/
theorem accepted_of {cfg : FederationConfig} {manifest : Fields} {values : List Value}
    (hvalues : manifestRows manifest = some values)
    (hchecks : ∀ value ∈ values, ∃ check, checkCoordinator cfg value = .ok ([], check))
    (hroot : manifest.lookup "federation_result_hash" =
      some (.str (cfg.hashJson (federationHashPayload manifest values))))
    (hcount : intOrZero cfg (manifest.get "coordinator_count") = .ok (values.length : ℤ)) :
    ManifestAccepted cfg manifest := by
  obtain ⟨checks, hmapM, herrors⟩ := exists_checks hchecks
  unfold ManifestAccepted verifyFederatedManifest
  rw [hvalues]
  dsimp only
  rw [hmapM, hroot, hcount, isText_str]
  refine ⟨_, rfl, ?_⟩
  dsimp only
  rw [herrors, if_pos rfl, if_pos rfl]
  rfl

/-- The rows of a list of coordinators. -/
theorem manifestRows_of {manifest : Fields} {values : List Value}
    (h : manifest.lookup "coordinators" = some (.arr values)) : manifestRows manifest = some values := by
  unfold manifestRows Fields.get
  rw [h]
  cases values with
  | nil => rfl
  | cons value rest => rfl

/-- What a demo run returns is accepted, if a settlement that is written can be read. -/
theorem federatedManifest_accepted (cfg : FederationConfig)
    (workersPerCoordinator epochReward : ℤ) (results : List DemoResult)
    (hvalidate : ∀ result ∈ results,
      cfg.modelValidate (settlementJson result.settlement) = .ok result.settlement) :
    ManifestAccepted cfg
      (federatedManifest cfg.toForgeConfig workersPerCoordinator epochReward results) := by
  have hpayload : (results.map fun result => Value.obj (demoRow cfg.toForgeConfig result)).filterMap
      rowPayload? = results.map fun result =>
        coordinatorPayload (.str result.coordinatorId) (.str result.settlement.resultHash)
          (.str (previewHash cfg.toForgeConfig result.settlement)) (.int result.workersCreated) := by
    rw [← Function.comp_def Value.obj, ← List.map_map, filterMap_rowPayload?, List.map_map]
    rfl
  refine accepted_of (manifestRows_of rfl) (fun value hvalue => ?_) ?_ ?_
  · obtain ⟨result, hresult, rfl⟩ := List.mem_map.mp hvalue
    show ∃ check, checkRow cfg (demoRow cfg.toForgeConfig result) = .ok ([], check)
    exact checkRow_of rfl (hvalidate result hresult) rfl
  · unfold federationHashPayload
    rw [hpayload]
    rfl
  · rw [List.length_map]
    rfl

/-! ## Rows with a hash of their own -/

/-- `fields[key] = value`. -/
def Fields.set (fields : Fields) (key : String) (value : Value) : Fields :=
  Sql.Table.upsertRows key value fields

/-- A key that is set has its value, and the others keep theirs. -/
theorem lookup_set (fields : Fields) (key key' : String) (value : Value) :
    (fields.set key value).lookup key' = if key' = key then some value else fields.lookup key' :=
  Sql.Table.lookup_upsertRows key key' value fields

/-- The row with another settlement, and the hashes that it is hashed with as keys of its own. -/
def withOwnHashes (fc : ForgeConfig) (row : Fields) (settlement : EpochSettlement) : Fields :=
  (((row.set "settlement_result_hash" (coordinatorSettlementHash row)).set "payload_hash"
    (coordinatorPayloadHash row)).set "settlement" (settlementJson settlement)).set "l1_preview"
    (.obj (previewJson fc settlement))

section

variable (fc : ForgeConfig) (row : Fields) (settlement : EpochSettlement)

/-- The row has its own hashes, and all else as before. -/
theorem lookup_withOwnHashes (key : String) :
    (withOwnHashes fc row settlement).lookup key =
      if key = "l1_preview" then some (.obj (previewJson fc settlement))
      else if key = "settlement" then some (settlementJson settlement)
      else if key = "payload_hash" then some (coordinatorPayloadHash row)
      else if key = "settlement_result_hash" then some (coordinatorSettlementHash row)
      else row.lookup key := by
  unfold withOwnHashes
  rw [lookup_set, lookup_set, lookup_set, lookup_set]

/-- The row is hashed as it was. -/
theorem rowPayload_withOwnHashes : rowPayload (withOwnHashes fc row settlement) = rowPayload row := by
  have hsettlement : coordinatorSettlementHash (withOwnHashes fc row settlement) =
      coordinatorSettlementHash row := by
    rw [coordinatorSettlementHash, lookup_withOwnHashes]
    rfl
  have hpayload : coordinatorPayloadHash (withOwnHashes fc row settlement) =
      coordinatorPayloadHash row := by
    rw [coordinatorPayloadHash, lookup_withOwnHashes]
    rfl
  unfold rowPayload Fields.get
  rw [hsettlement, hpayload, lookup_withOwnHashes, lookup_withOwnHashes]
  rfl

end

/-- Any settlement that can be read can be put into any row of an accepted manifest, under the
published hash. -/
theorem hidden_settlement (cfg : FederationConfig) {settlement : EpochSettlement}
    (hvalidate : cfg.modelValidate (settlementJson settlement) = .ok settlement)
    {manifest : Fields} (h : ManifestAccepted cfg manifest) {before after : List Value} {row : Fields}
    (hrows : manifestRows manifest = some (before ++ .obj row :: after)) :
    let values := before ++ .obj (withOwnHashes cfg.toForgeConfig row settlement) :: after
    let changed := manifest.set "coordinators" (.arr values)
    ManifestAccepted cfg changed ∧ manifestRows changed = some values ∧
      changed.get "federation_result_hash" = manifest.get "federation_result_hash" := by
  intro values changed
  obtain ⟨values', hvalues', hchecks, hroot, hcount⟩ := accepted_inv h
  obtain rfl := Option.some.inj (hrows.symm.trans hvalues')
  -- only the list of coordinators is written, and its payload is as before
  have hother : ∀ key, key ≠ "coordinators" → changed.lookup key = manifest.lookup key := by
    intro key hkey
    rw [lookup_set, if_neg hkey]
  have hrows' : manifestRows changed = some values := by
    apply manifestRows_of
    rw [lookup_set, if_pos rfl]
  have hpayload : federationHashPayload changed values =
      federationHashPayload manifest (before ++ .obj row :: after) := by
    unfold federationHashPayload Fields.get
    rw [hother _ (by decide), hother _ (by decide), hother _ (by decide), hother _ (by decide)]
    rw [List.filterMap_append, List.filterMap_append]
    show federationPayload _ _ _ _ (_ ++ rowPayload (withOwnHashes _ row settlement) :: _) = _
    rw [rowPayload_withOwnHashes]
    rfl
  refine ⟨accepted_of hrows' (fun value hvalue => ?_) ?_ ?_, hrows', ?_⟩
  · rcases List.mem_append.mp hvalue with hbefore | hrest
    · exact hchecks value (List.mem_append_left _ hbefore)
    · rcases List.mem_cons.mp hrest with rfl | hafter
      · show ∃ check, checkRow cfg (withOwnHashes cfg.toForgeConfig row settlement) = .ok ([], check)
        refine checkRow_of ?_ hvalidate ?_
        · rw [lookup_withOwnHashes]
          rfl
        · rw [lookup_withOwnHashes]
          rfl
      · exact hchecks value (List.mem_append_right _ (List.mem_cons_of_mem _ hafter))
  · rw [hother _ (by decide), hpayload]
    exact hroot
  · unfold Fields.get
    rw [hother _ (by decide)]
    have hlength : values.length = (before ++ Value.obj row :: after).length := by
      rw [List.length_append, List.length_append, List.length_cons, List.length_cons]
    rw [hlength]
    exact hcount
  · unfold Fields.get
    rw [hother _ (by decide)]

/-! ## Binding, exactly -/

/-- A row has one settlement. -/
theorem Settled.eq {cfg : FederationConfig} {row : Fields} {s s' : EpochSettlement} (h : Settled cfg row s)
    (h' : Settled cfg row s') : s = s' := by
  obtain ⟨value, hvalue, hs⟩ := h.validated
  obtain ⟨value', hvalue', hs'⟩ := h'.validated
  rw [hvalue] at hvalue'
  cases hvalue'
  exact Except.ok.inj (hs.symm.trans hs')

/-- Lists that agree elsewhere are compared at one place. -/
theorem middle_of_forall₂ {α : Type} {R : α → α → Prop} {a b : α} {before after : List α}
    (h : List.Forall₂ R (before ++ a :: after) (before ++ b :: after)) : R a b := by
  induction before with
  | nil => exact (List.forall₂_cons.mp h).1
  | cons c rest ih => exact ih (List.forall₂_cons.mp h).2

/-- A list that is paired with itself has equal pairs. -/
theorem eq_of_mem_zip_self {α : Type} {c d : α} {l : List α} (h : (c, d) ∈ l.zip l) : c = d := by
  induction l with
  | nil => exact absurd h List.not_mem_nil
  | cons e rest ih =>
    rcases List.mem_cons.mp h with heq | h
    · obtain ⟨rfl, rfl⟩ := Prod.mk.inj heq
      rfl
    · exact ih h

/-- A pair of two lists that differ in one place is there or of equals. -/
theorem eq_of_mem_zip {α : Type} {a b c d : α} {before after : List α}
    (h : (c, d) ∈ (before ++ a :: after).zip (before ++ b :: after)) : c = d ∨ c = a := by
  induction before with
  | nil =>
    rcases List.mem_cons.mp h with heq | h
    · exact .inr (Prod.mk.inj heq).1
    · exact .inl (eq_of_mem_zip_self h)
  | cons e rest ih =>
    rcases List.mem_cons.mp h with heq | h
    · obtain ⟨rfl, rfl⟩ := Prod.mk.inj heq
      exact .inl rfl
    · exact ih h

/-- A settlement that was read can be written with another epoch and read again. -/
def RereadsSettlements (cfg : FederationConfig) : Prop :=
  ∀ value s, cfg.modelValidate value = .ok s → ∀ epochId,
    cfg.modelValidate (settlementJson { s with epochId }) = .ok { s with epochId }

/-- **Binding**: the hash of an accepted manifest binds its coordinators and settlements, against every
accepted manifest with no further row that is hashed with another hash than its preview's, if and only
if each of its own rows is hashed with its preview's. -/
theorem federation_binds_iff (cfg : FederationConfig) (hsha : Function.Injective cfg.sha256Text)
    (hrereads : RereadsSettlements cfg) (manifest : Fields) (h : ManifestAccepted cfg manifest) :
    (∀ manifest', ManifestAccepted cfg manifest' →
        manifest'.get "federation_result_hash" = manifest.get "federation_result_hash" →
        HashedAlike manifest manifest' → SameFederation cfg manifest manifest') ↔
      PreviewsHashed manifest := by
  constructor
  · intro hbinds values hvalues row hrow
    by_contra hown
    obtain ⟨rows, hrows, hsettled, -⟩ := accepted_spec h
    have hmem : row ∈ rows := by
      rw [Option.some.inj (hvalues.symm.trans hrows)] at hrow
      obtain ⟨r, hr, heq⟩ := List.mem_map.mp hrow
      cases heq
      exact hr
    obtain ⟨s, hs⟩ := hsettled row hmem
    obtain ⟨before, after, rfl⟩ := List.append_of_mem hrow
    obtain ⟨own, -, hown'⟩ := hs.validated
    have hreread := hrereads own s hown' (s.epochId + 1)
    -- another epoch is put into the row
    obtain ⟨haccepted, hchanged, hroot⟩ := hidden_settlement cfg hreread h hvalues
    have halike : HashedAlike manifest (manifest.set "coordinators" (.arr (before ++
        .obj (withOwnHashes cfg.toForgeConfig row { s with epochId := s.epochId + 1 }) :: after))) := by
      intro values values' hvalues₁ hvalues₂ r r' hzip hr
      cases hvalues.symm.trans hvalues₁
      cases hchanged.symm.trans hvalues₂
      rcases eq_of_mem_zip hzip with heq | heq
      · cases heq
        exact hr
      · cases heq
        exact absurd hr hown
    obtain ⟨_, _, hvalues₁, hvalues₂, hsame⟩ := hbinds _ haccepted hroot halike
    cases hvalues.symm.trans hvalues₁
    cases hchanged.symm.trans hvalues₂
    obtain ⟨r, r', s₁, s₂, hr, hr', -, hs₁, hs₂, hepoch, -⟩ := middle_of_forall₂ hsame
    cases hr
    cases hr'
    obtain rfl := hs.eq hs₁
    -- the row's settlement is the one that was put in
    obtain ⟨value, hvalue, hvalidated⟩ := hs₂.validated
    rw [lookup_withOwnHashes] at hvalue
    obtain rfl : settlementJson { s with epochId := s.epochId + 1 } = value := Option.some.inj hvalue
    rw [hreread] at hvalidated
    obtain rfl := Except.ok.inj hvalidated
    have hnext : s.epochId = s.epochId + 1 := hepoch
    omega
  · intro hhashed manifest' h' hroot halike
    exact sameFederation_of_hash hsha h h' hroot hhashed halike

/-! ## A wallet that is changed -/

def localFederation : FederationConfig :=
  { localChallenges with
    modelValidate := validateSettlement
    str := fun value => match value with
      | .str text => text
      | _ => "" }

/-- A settlement with one worker, paid to a wallet. -/
def walletSettlement (wallet : String) : EpochSettlement :=
  { buildSettlement localForge "2026-05-10T00:00:00+00:00" 1 10000000000
      [⟨"worker_1", "PIANN", 100000000, 10000000000⟩] with
    workers := [⟨"worker_1", wallet, 100000000, 10000000000⟩] }

/-- The run of a coordinator. -/
def annResult : DemoResult where
  coordinatorId := "coordinator-1"
  stateDir := "demo/coordinator-1"
  workersCreated := 1
  challengesPassed := 3
  settlement := walletSettlement "PIANN"

def publishedManifest : Fields := federatedManifest localForge 1 10000000000 [annResult]

/-- The published manifest is accepted. -/
theorem publishedManifest_accepted : ManifestAccepted localFederation publishedManifest :=
  federatedManifest_accepted localFederation 1 10000000000 [annResult] fun _ _ =>
    validateSettlement_json _

/-- Its hash binds it, as no row has a key of its own. -/
theorem federation_binds_published :
    (∀ manifest', ManifestAccepted localFederation manifest' →
        manifest'.get "federation_result_hash" = publishedManifest.get "federation_result_hash" →
        HashedAlike publishedManifest manifest' →
        SameFederation localFederation publishedManifest manifest') ↔
      PreviewsHashed publishedManifest :=
  federation_binds_iff localFederation (fun _ _ h => h) (fun _ _ _ _ => validateSettlement_json _)
    publishedManifest publishedManifest_accepted

/-- The published manifest with another wallet, and the hashes of the row as keys of its own. -/
def changedManifest : Fields :=
  publishedManifest.set "coordinators"
    (.arr [.obj (withOwnHashes localForge (demoRow localForge annResult) (walletSettlement "PIBOB"))])

/-- The changed manifest is accepted under the published hash. -/
theorem wallet_changed :
    ManifestAccepted localFederation publishedManifest ∧ ManifestAccepted localFederation changedManifest ∧
      changedManifest.get "federation_result_hash" = publishedManifest.get "federation_result_hash" ∧
      ¬ SameFederation localFederation publishedManifest changedManifest := by
  have hrows : manifestRows publishedManifest =
      some ([] ++ .obj (demoRow localForge annResult) :: []) := rfl
  obtain ⟨haccepted, hchanged, hroot⟩ := hidden_settlement localFederation
    (validateSettlement_json (walletSettlement "PIBOB")) publishedManifest_accepted hrows
  refine ⟨publishedManifest_accepted, haccepted, hroot, ?_⟩
  rintro ⟨_, _, hvalues, hvalues', hsame⟩
  cases hrows.symm.trans hvalues
  cases hchanged.symm.trans hvalues'
  obtain ⟨r, r', s, s', hr, hr', -, hs, hs', -, -, hworkers⟩ := middle_of_forall₂ hsame
  cases hr
  cases hr'
  -- each row has the settlement that was put into it, and these pay different wallets
  obtain ⟨value, hvalue, hvalidated⟩ := hs.validated
  obtain ⟨value', hvalue', hvalidated'⟩ := hs'.validated
  rw [lookup_withOwnHashes] at hvalue'
  obtain rfl : settlementJson (walletSettlement "PIANN") = value := Option.some.inj hvalue
  obtain rfl : settlementJson (walletSettlement "PIBOB") = value' := Option.some.inj hvalue'
  obtain rfl : walletSettlement "PIANN" = s :=
    Except.ok.inj ((validateSettlement_json _).symm.trans hvalidated)
  obtain rfl : walletSettlement "PIBOB" = s' :=
    Except.ok.inj ((validateSettlement_json _).symm.trans hvalidated')
  exact absurd hworkers (by decide)

end Picoin.Forge.Coordinator
