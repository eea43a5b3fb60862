import Picoin.Core.Settings
import Picoin.Core.Text
import Picoin.Lib.MerkleTree

/-!
# The Merkle tree of a segment

A miner commits to the digits of its segment with a hash tree whose leaves hash a position and an
upper-cased digit. A validator samples positions and checks the digit there against the root; the
prover takes the siblings from the layers by their indices, the verifier climbs by the sides alone.

The upper case of a text goes character by character, and one character can have several; the
tables of the language are a parameter, `CaseMap`.
-/

namespace Picoin

/-- `str.upper` of one character. -/
structure CaseMap where
  upperChar : Char → List Char
  upperChar_ne_nil : ∀ c, upperChar c ≠ []
  /-- Upper-case characters are their own upper case. -/
  upperChar_fixed : ∀ c, ∀ d ∈ upperChar c, upperChar d = [d]

/-- `text.upper()`. -/
def CaseMap.upper (cm : CaseMap) (text : String) : String :=
  String.ofList (text.toList.flatMap cm.upperChar)

/-- `leaf_hash`. -/
def leafHash (cfg : Config) (cm : CaseMap) (position : ℤ) (digit : String) : String :=
  cfg.hashJson (.obj [("digit", .str (cm.upper digit)), ("position", .int position)])

/-- `parent_hash`. -/
def parentHash (cfg : Config) (left right : String) : String :=
  cfg.hashJson (.obj [("left", .str left), ("right", .str right)])

/-- The leaves of `build_merkle_layers`, from a position on. -/
def segmentLeaves (cfg : Config) (cm : CaseMap) (position : ℤ) : List Char → List String
  | [] => []
  | digit :: rest =>
    leafHash cfg cm position (String.singleton digit) :: segmentLeaves cfg cm (position + 1) rest

/-- `build_merkle_layers`. -/
def buildMerkleLayers (cfg : Config) (cm : CaseMap) (segment : String) (rangeStart : ℤ) :
    Except String (List (List String)) :=
  if segment = "" then throw "segment cannot be empty"
  else pure (MerkleTree.layersFrom (parentHash cfg)
    (segmentLeaves cfg cm rangeStart (cm.upper segment).toList))

/-- `merkle_root`: the first hash of the last layer. -/
def merkleRoot (cfg : Config) (cm : CaseMap) (segment : String) (rangeStart : ℤ) :
    Except String String := do
  let layers ← buildMerkleLayers cfg cm segment rangeStart
  match (layers.getLast?).bind List.head? with
  | some root => pure root
  | none => throw "list index out of range"

/-- One item of a proof; the side is what the item holds under `side`, if anything. -/
structure ProofItem where
  side : Option String
  hash : String

/-- The loop of `merkle_proof`. -/
def proofItems : List (List String) → ℕ → Except String (List ProofItem)
  | [], _ => pure []
  | layer :: rest, index => do
    let sibling := MerkleTree.siblingIndex layer.length index
    match layer[sibling]? with
    | none => throw "list index out of range"
    | some hash =>
      let items ← proofItems rest (index / 2)
      return ⟨some (if sibling < index then "left" else "right"), hash⟩ :: items

/-- `merkle_proof`. -/
def merkleProof (cfg : Config) (cm : CaseMap) (segment : String) (rangeStart position : ℤ) :
    Except String (List ProofItem) :=
  if position < rangeStart ∨ rangeStart + segment.length ≤ position then
    throw "position is outside segment range"
  else do
    let layers ← buildMerkleLayers cfg cm segment rangeStart
    proofItems layers.dropLast (position - rangeStart).toNat

/-- The loop of `verify_merkle_proof`: the hash that the items lead to. -/
def foldProof (cfg : Config) (current : String) : List ProofItem → Option String
  | [] => some current
  | item :: rest =>
    if item.side = some "left" then foldProof cfg (parentHash cfg item.hash current) rest
    else if item.side = some "right" then foldProof cfg (parentHash cfg current item.hash) rest
    else none

/-- `verify_merkle_proof`. -/
def verifyMerkleProof (cfg : Config) (cm : CaseMap) (position : ℤ) (digit : String)
    (proof : List ProofItem) (expectedRoot : String) : Bool :=
  match foldProof cfg (leafHash cfg cm position digit) proof with
  | none => false
  | some current => current = expectedRoot

end Picoin
