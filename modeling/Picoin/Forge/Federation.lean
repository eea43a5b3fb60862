import Picoin.Forge.ChallengeEngine
import Picoin.Forge.Settlement

/-!
# Federated manifests

A manifest lists coordinators with a settlement each and the preview that a ledger would be shown. One
hash is published for it: of the coordinators' ids and of the hashes of their settlements and previews.

* **`federatedManifest`** — the manifest of demo runs;
* **`federationHashPayload`** — what is hashed, of a manifest that was received;
* **`verifyFederatedManifest`** — the checks.
-/

namespace Picoin.Forge.Coordinator

open Json

/-- What the libraries under the checks do: the validation of a settlement, and `str` of a value. -/
structure FederationConfig extends ChallengeConfig where
  modelValidate : Value → Except String EpochSettlement
  str : Value → String

/-- The fields of an object. -/
abbrev Fields := List (String × Value)

/-- `fields.get(key)`. -/
def Fields.get (fields : Fields) (key : String) : Value := (fields.lookup key).getD .null

/-- `value or {}`. -/
def orEmpty (value : Value) : Value := if truthy value then value else .obj []

/-! ## Manifests of demo runs -/

structure DemoResult where
  coordinatorId : String
  stateDir : String
  workersCreated : ℤ
  challengesPassed : ℤ
  settlement : EpochSettlement

/-- `preview.model_dump(mode="json")`. -/
def previewJson (fc : ForgeConfig) (settlement : EpochSettlement) : Fields :=
  [("schema_version", .str "picoin-forge-l2-settlement-preview-v1"),
    ("payload_type", .str "l2_epoch_settlement_preview"),
    ("epoch_id", .int settlement.epochId), ("epoch_reward", .float settlement.epochReward),
    ("total_verified_compute", .float settlement.totalVerifiedCompute),
    ("worker_count", .int settlement.workers.length),
    ("settlement_result_hash", .str settlement.resultHash),
    ("worker_rewards", .arr (settlement.workers.map epochRewardJson)),
    ("payload_hash", .str (previewHash fc settlement)),
    ("signatures", .arr []), ("no_l1_transaction_created", .bool true),
    ("note", .str "Preview only. This payload is not submitted to Picoin L1.")]

/-- The row of a coordinator. -/
def demoRow (fc : ForgeConfig) (result : DemoResult) : Fields :=
  [("coordinator_id", .str result.coordinatorId), ("state_dir", .str result.stateDir),
    ("workers_created", .int result.workersCreated), ("challenges_passed", .int result.challengesPassed),
    ("settlement", settlementJson result.settlement),
    ("l1_preview", .obj (previewJson fc result.settlement))]

/-- A coordinator in the payload that is hashed. -/
def coordinatorPayload (coordinatorId settlementHash payloadHash workersCreated : Value) : Value :=
  .obj [("coordinator_id", coordinatorId), ("settlement_result_hash", settlementHash),
    ("payload_hash", payloadHash), ("workers_created", workersCreated)]

/-- The payload that is hashed. -/
def federationPayload (schemaVersion coordinatorCount workersPerCoordinator epochReward : Value)
    (coordinators : List Value) : Value :=
  .obj [("schema_version", schemaVersion), ("coordinator_count", coordinatorCount),
    ("workers_per_coordinator", workersPerCoordinator),
    ("epoch_reward_per_coordinator", epochReward), ("coordinators", .arr coordinators)]

/-- What `run_federated_demo` returns for the results of its runs. -/
def federatedManifest (fc : ForgeConfig) (workersPerCoordinator epochReward : ℤ)
    (results : List DemoResult) : Fields :=
  let version := Value.str "picoin-forge-l2-federation-demo-v1"
  let count := Value.int results.length
  let payload := federationPayload version count (.int workersPerCoordinator) (.float epochReward)
    (results.map fun result =>
      coordinatorPayload (.str result.coordinatorId) (.str result.settlement.resultHash)
        (.str (previewHash fc result.settlement)) (.int result.workersCreated))
  [("schema_version", version), ("coordinator_count", count),
    ("workers_per_coordinator", .int workersPerCoordinator),
    ("epoch_reward_per_coordinator", .float epochReward),
    ("coordinators", .arr (results.map fun result => .obj (demoRow fc result))),
    ("federation_result_hash", .str (fc.hashJson payload)), ("no_l1_transaction_created", .bool true),
    ("note", .str "Local simulation only. This manifest is not submitted to Picoin L1.")]

/-! ## The hash of a manifest -/

/-- The value under a key of the object under another, or `None`. -/
def nestedGet (row : Fields) (object key : String) : Value :=
  match orEmpty (row.get object) with
  | .obj fields => Fields.get fields key
  | _ => .null

/-- `_coordinator_settlement_hash`: the row's own key comes first. -/
def coordinatorSettlementHash (row : Fields) : Value :=
  match row.lookup "settlement_result_hash" with
  | some value => value
  | none => nestedGet row "settlement" "result_hash"

/-- `_coordinator_payload_hash`: the row's own key comes first. -/
def coordinatorPayloadHash (row : Fields) : Value :=
  match row.lookup "payload_hash" with
  | some value => value
  | none => nestedGet row "l1_preview" "payload_hash"

/-- A row in the payload that is hashed. -/
def rowPayload (row : Fields) : Value :=
  coordinatorPayload (row.get "coordinator_id") (coordinatorSettlementHash row)
    (coordinatorPayloadHash row) (row.get "workers_created")

/-- What is no object is left out. -/
def rowPayload? : Value → Option Value
  | .obj row => some (rowPayload row)
  | _ => none

/-- `manifest.get("coordinators") or []`, if that is a list. -/
def manifestRows (manifest : Fields) : Option (List Value) :=
  let coordinators := manifest.get "coordinators"
  if truthy coordinators then
    match coordinators with
    | .arr rows => some rows
    | _ => none
  else some []

/-- `_federation_hash_payload`. -/
def federationHashPayload (manifest : Fields) (rows : List Value) : Value :=
  federationPayload (manifest.get "schema_version") (manifest.get "coordinator_count")
    (manifest.get "workers_per_coordinator") (manifest.get "epoch_reward_per_coordinator")
    (rows.filterMap rowPayload?)

/-! ## Checks -/

structure CoordinatorCheck where
  coordinatorId : String
  previewHashMatches : Bool
  settlementHashMatches : Bool

/-- What the checks report. Of a manifest whose coordinators are no list only the error is. -/
structure ManifestReport where
  valid : Bool
  errors : List String
  expectedFederationResultHash : Option String
  rootHashMatches : Option Bool
  coordinatorChecks : List CoordinatorCheck

/-- The errors of a row, and its checks if it has a settlement. A preview that is no object raises. -/
def checkRow (cfg : FederationConfig) (row : Fields) :
    Except String (List String × Option CoordinatorCheck) :=
  let coordinatorId := cfg.str ((row.lookup "coordinator_id").getD (.str "unknown"))
  let invalid := fun reason : String =>
    ([coordinatorId ++ ": invalid settlement payload: " ++ reason], none)
  match row.lookup "settlement" with
  | none => .ok (invalid "'settlement'")
  -- the settlement's own hash is not computed again here
  | some value =>
    match cfg.modelValidate value with
    | .error e => .ok (invalid e)
    | .ok settlement =>
      match orEmpty (row.get "l1_preview") with
      | .obj preview =>
        let previewMatches :=
          isText (preview.lookup "payload_hash") (previewHash cfg.toForgeConfig settlement)
        let settlementMatches := isText (preview.lookup "settlement_result_hash") settlement.resultHash
        .ok ((if previewMatches then [] else [coordinatorId ++ ": l1 preview payload hash mismatch"]) ++
            (if settlementMatches then [] else [coordinatorId ++ ": settlement result hash mismatch"]),
          some ⟨coordinatorId, previewMatches, settlementMatches⟩)
      | _ => .error "object has no attribute 'get'"

/-- A turn of the loop over the coordinators. -/
def checkCoordinator (cfg : FederationConfig) :
    Value → Except String (List String × Option CoordinatorCheck)
  | .obj row => checkRow cfg row
  | _ => .ok (["coordinator entry must be an object"], none)

/-- `int(value or 0)`. -/
def intOrZero (cfg : FederationConfig) (value : Value) : Except String ℤ :=
  match value with
  | .null => .ok 0
  | .bool b => .ok (if b then 1 else 0)
  | .int i => .ok i
  | .float x => .ok (x.tdiv (10 ^ 8))
  | .str s =>
    if s = "" then .ok 0
    else match cfg.intOfText s with
      | some i => .ok i
      | none => .error "invalid literal for int() with base 10"
  | .arr items => if items.isEmpty then .ok 0 else .error "int() argument must be a number"
  | .obj fields => if fields.isEmpty then .ok 0 else .error "int() argument must be a number"

/-- `verify_federated_manifest`. -/
def verifyFederatedManifest (cfg : FederationConfig) (manifest : Fields) :
    Except String ManifestReport :=
  match manifestRows manifest with
  -- the report is returned before any row is looked at
  | none => .ok ⟨false, ["coordinators must be a list"], none, none, []⟩
  | some rows => do
    let checks ← rows.mapM (checkCoordinator cfg)
    let expectedRootHash := cfg.hashJson (federationHashPayload manifest rows)
    let rootHashMatches := isText (manifest.lookup "federation_result_hash") expectedRootHash
    let expectedCount ← intOrZero cfg (manifest.get "coordinator_count")
    let errors := (checks.map Prod.fst).flatten ++
      (if rootHashMatches then [] else ["federation result hash mismatch"]) ++
      (if expectedCount = rows.length then []
        else ["coordinator_count does not match coordinator entries"])
    return { valid := errors.isEmpty
             errors
             expectedFederationResultHash := some expectedRootHash
             rootHashMatches := some rootHashMatches
             coordinatorChecks := checks.filterMap Prod.snd }

end Picoin.Forge.Coordinator
