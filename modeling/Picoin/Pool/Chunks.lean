import Picoin.Pool.Work

/-!
# Chunks of a range

The pool splits the range of a task into chunks and puts the digits of the chunks together again.

* **`splitRange`**, **`splitRangeBalanced`** — the chunks of a range;
* **`assembleSegment`** — the segment of a range from those of its chunks.
-/

namespace Picoin.Pool

/-! ## Splitting -/

/-- `split_range`. Every chunk has a position, so there are at most as many as positions. -/
def splitRange (rangeStart rangeEnd chunkSize : ℤ) : Except PoolError (List WorkChunk) :=
  if rangeStart < 1 then .error (.value "range_start must be >= 1")
  else if rangeEnd < rangeStart then .error (.value "range_end must be >= range_start")
  else if chunkSize < 1 then .error (.value "chunk_size must be >= 1")
  else .ok (splitFrom chunkSize rangeStart rangeEnd (rangeEnd - rangeStart + 1).toNat)

/-- The loop of `split_range_balanced` from an index on, with so many chunks left. -/
def balancedFrom (baseUnits extraUnits current : ℤ) (index : ℕ) : ℕ → List WorkChunk
  | 0 => []
  | left + 1 =>
    let chunkUnits := baseUnits + if index < extraUnits then 1 else 0
    let chunkEnd := current + chunkUnits - 1
    ⟨current, chunkEnd⟩ :: balancedFrom baseUnits extraUnits (chunkEnd + 1) (index + 1) left

/-- `split_range_balanced`; a target of zero counts as one. -/
def splitRangeBalanced (rangeStart rangeEnd targetChunks : ℤ) :
    Except PoolError (List WorkChunk) :=
  if rangeStart < 1 then .error (.value "range_start must be >= 1")
  else if rangeEnd < rangeStart then .error (.value "range_end must be >= range_start")
  else
    let units := rangeEnd - rangeStart + 1
    let chunkCount := max 1 (min (if targetChunks = 0 then 1 else targetChunks) units)
    .ok (balancedFrom (units / chunkCount) (units % chunkCount) rangeStart 0 chunkCount.toNat)

/-! ## Assembling -/

/-- A chunk with its digits. -/
structure ChunkSegment where
  rangeStart : ℤ
  rangeEnd : ℤ
  segment : String

/-- The loop of `assemble_segment`: the next position, and the pieces. -/
def assembleFrom (expected : ℤ) : List ChunkSegment → Except PoolError (ℤ × List String)
  | [] => .ok (expected, [])
  | chunk :: rest =>
    let chunkStart := chunk.rangeStart
    let chunkEnd := chunk.rangeEnd
    if chunkStart ≠ expected then
      .error (.value s!"missing segment data at position {expected}")
    else if chunkEnd < chunkStart then
      .error (.value "chunk range_end must be >= range_start")
    else if chunk.segment.length ≠ chunkEnd - chunkStart + 1 then
      .error (.value s!"segment length mismatch for {chunkStart}..{chunkEnd}")
    else do
      let (next, pieces) ← assembleFrom (chunkEnd + 1) rest
      return (next, chunk.segment :: pieces)

/-- `assemble_segment`. -/
def assembleSegment (rangeStart rangeEnd : ℤ) (chunks : List ChunkSegment) :
    Except PoolError String := do
  let ordered := chunks.insertionSort fun a b => a.rangeStart ≤ b.rangeStart
  let (expected, pieces) ← assembleFrom rangeStart ordered
  if expected ≠ rangeEnd + 1 then
    .error (.value s!"missing segment data at position {expected}")
  else return String.join pieces

end Picoin.Pool
