import Mathlib.Data.List.Induction
import Mathlib.Data.List.Nodup
import Mathlib.Tactic.SplitIfs

/-!
# Hash trees over a list of leaves

A layer is paired up with a binary hash `node` until one hash is left; a hash without a partner is
paired with itself. A path from a hash says, step by step, which sibling stands on which side.

The hashes that such a tree can contain are `InTree`. If `node` is injective and no leaf is a node,
then whatever a path climbs from to a hash of the tree is in the tree itself (`InTree.of_climb`):
nothing is assumed about the length of the path, its sides or its siblings.

The hash at the top tells lists of one length apart (`eq_of_root_of_length`), and lists that repeat no
hash and have as many layers (`eq_of_root_of_nodup`); a list and the list with its last hash repeated
have one hash at the top.
-/

namespace MerkleTree

universe u
variable {δ : Type u} (node : δ → δ → δ)

/-! ## Layers -/

/-- The layer above; a hash without a partner is paired with itself. -/
def pairUp : List δ → List δ
  | [] => []
  | [a] => [node a a]
  | a :: b :: rest => node a b :: pairUp rest

theorem length_pairUp : ∀ layer : List δ, (pairUp node layer).length = (layer.length + 1) / 2
  | [] => by simp [pairUp]
  | [_] => by simp [pairUp]
  | _ :: _ :: rest => by
    rw [pairUp, List.length_cons, length_pairUp rest, List.length_cons, List.length_cons]
    omega

/-- All layers from the given one up to a single hash. -/
def layersFrom (layer : List δ) : List (List δ) :=
  if 1 < layer.length then layer :: layersFrom (pairUp node layer) else [layer]
termination_by layer.length
decreasing_by rw [length_pairUp]; omega

theorem layersFrom_ne_nil (layer : List δ) : layersFrom node layer ≠ [] := by
  rw [layersFrom]
  split
  · exact List.cons_ne_nil _ _
  · exact List.cons_ne_nil _ _

/-- Some leaves have one hash at the top. -/
theorem exists_root (layer : List δ) (hne : layer ≠ []) :
    ∃ root, (layersFrom node layer).getLast? = some [root] := by
  induction layer using layersFrom.induct node with
  | case1 layer hlength ih =>
    have hpos : 0 < (pairUp node layer).length := by rw [length_pairUp]; omega
    obtain ⟨root, hroot⟩ := ih (List.length_pos_iff.mp hpos)
    refine ⟨root, ?_⟩
    rw [layersFrom, if_pos hlength, List.getLast?_cons, hroot]
    rfl
  | case2 layer hlength =>
    have hpos := List.length_pos_iff.mpr hne
    obtain ⟨root, rfl⟩ := List.length_eq_one_iff.mp (by omega : layer.length = 1)
    refine ⟨root, ?_⟩
    rw [layersFrom, if_neg hlength]
    rfl

/-! ## The hashes of a tree -/

/-- A leaf, or made of hashes of the tree. -/
inductive InTree (leaves : List δ) : δ → Prop where
  | leaf {h : δ} : h ∈ leaves → InTree leaves h
  | node {a b : δ} : InTree leaves a → InTree leaves b → InTree leaves (node a b)

variable {node}

theorem InTree.of_mem_pairUp {leaves : List δ} :
    ∀ {layer : List δ}, (∀ h ∈ layer, InTree node leaves h) →
      ∀ h ∈ pairUp node layer, InTree node leaves h
  | [], _, h, hh => nomatch hh
  | [a], hlayer, h, hh => by
    rw [List.mem_singleton.mp hh]
    exact .node (hlayer a List.mem_cons_self) (hlayer a List.mem_cons_self)
  | a :: b :: rest, hlayer, h, hh => by
    rcases List.mem_cons.mp hh with rfl | hrest
    · exact .node (hlayer a (by simp)) (hlayer b (by simp))
    · exact InTree.of_mem_pairUp (fun h' hh' => hlayer h' (by simp [hh'])) h hrest

theorem InTree.of_mem_layersFrom {leaves : List δ} (layer : List δ)
    (hlayer : ∀ h ∈ layer, InTree node leaves h) :
    ∀ upper ∈ layersFrom node layer, ∀ h ∈ upper, InTree node leaves h := by
  induction layer using layersFrom.induct node with
  | case1 layer hlength ih =>
    rw [layersFrom, if_pos hlength]
    intro upper hupper
    rcases List.mem_cons.mp hupper with rfl | hrest
    · exact hlayer
    · exact ih (InTree.of_mem_pairUp hlayer) upper hrest
  | case2 layer hlength =>
    rw [layersFrom, if_neg hlength]
    intro upper hupper
    rw [List.mem_singleton.mp hupper]
    exact hlayer

/-- The hash at the top is in the tree. -/
theorem InTree.of_root {leaves : List δ} {root : δ}
    (hroot : (layersFrom node leaves).getLast? = some [root]) : InTree node leaves root :=
  InTree.of_mem_layersFrom leaves (fun _ => .leaf) _ (List.mem_of_getLast? hroot) root
    List.mem_cons_self

/-! ## Paths -/

/-- The side that a sibling stands on. -/
inductive Side where
  | left
  | right
deriving DecidableEq

variable (node)

/-- One step of a path. -/
def climbStep (current : δ) (step : Side × δ) : δ :=
  match step.1 with
  | .left => node step.2 current
  | .right => node current step.2

/-- Where a path ends. -/
def climb (start : δ) (path : List (Side × δ)) : δ := path.foldl (climbStep node) start

variable {node}

/-- What makes a node of the tree is in the tree. -/
theorem InTree.of_node {leaves : List δ}
    (hinj : ∀ a b a' b', node a b = node a' b' → a = a' ∧ b = b')
    (hleaf : ∀ a b, node a b ∉ leaves) {a b : δ} (h : InTree node leaves (node a b)) :
    InTree node leaves a ∧ InTree node leaves b := by
  generalize hn : node a b = n at h
  cases h with
  | leaf hmem => exact absurd (hn ▸ hmem) (hleaf a b)
  | node ha hb =>
    obtain ⟨rfl, rfl⟩ := hinj _ _ _ _ hn
    exact ⟨ha, hb⟩

/-- A path that ends in the tree starts in the tree. -/
theorem InTree.of_climb {leaves : List δ}
    (hinj : ∀ a b a' b', node a b = node a' b' → a = a' ∧ b = b')
    (hleaf : ∀ a b, node a b ∉ leaves) {start : δ} (path : List (Side × δ))
    (h : InTree node leaves (climb node start path)) : InTree node leaves start := by
  -- peel the steps off from the last one
  induction path using List.reverseRecOn with
  | nil => exact h
  | append_singleton path step ih =>
    rw [climb, List.foldl_append, List.foldl_cons, List.foldl_nil] at h
    obtain ⟨side, sibling⟩ := step
    cases side with
    | left => exact ih (InTree.of_node hinj hleaf h).2
    | right => exact ih (InTree.of_node hinj hleaf h).1

/-! ## Siblings -/

/-- The index of the sibling in a layer; at the odd end a hash is its own sibling. -/
def siblingIndex (length index : ℕ) : ℕ :=
  let sibling := if index % 2 = 1 then index - 1 else index + 1
  if length ≤ sibling then index else sibling

theorem siblingIndex_add_two (length index : ℕ) :
    siblingIndex (length + 2) (index + 2) = siblingIndex length index + 2 := by
  unfold siblingIndex
  dsimp only
  split_ifs <;> omega

/-- A hash and its sibling make the hash above. -/
theorem getElem?_pairUp (node : δ → δ → δ) :
    ∀ (layer : List δ) (index : ℕ) {h : δ}, layer[index]? = some h →
      ∃ s, layer[siblingIndex layer.length index]? = some s ∧
        (pairUp node layer)[index / 2]? = some
          (if siblingIndex layer.length index < index then node s h else node h s)
  | [], _, _, hindex => nomatch hindex
  | [a], 0, _, hindex => ⟨a, rfl, by cases hindex; rfl⟩
  | a :: b :: rest, 0, _, hindex => by
    cases hindex
    exact ⟨b, by simp [siblingIndex], by simp [siblingIndex, pairUp]⟩
  | a :: b :: rest, 1, _, hindex => by
    cases hindex
    exact ⟨a, by simp [siblingIndex], by simp [siblingIndex, pairUp]⟩
  | a :: b :: rest, index + 2, _, hindex => by
    obtain ⟨s, hs, habove⟩ := getElem?_pairUp node rest index hindex
    refine ⟨s, ?_, ?_⟩
    · rw [List.length_cons, List.length_cons, siblingIndex_add_two]
      exact hs
    · rw [List.length_cons, List.length_cons, siblingIndex_add_two, pairUp,
        Nat.add_div_right _ (by decide), List.getElem?_cons_succ, habove]
      congr 1
      split_ifs <;> first | rfl | omega

/-! ## Roots that bind -/

theorem layersFrom_of_long {l : List δ} (h : 1 < l.length) :
    layersFrom node l = l :: layersFrom node (pairUp node l) := by
  rw [layersFrom, if_pos h]

theorem layersFrom_of_short {l : List δ} (h : ¬ 1 < l.length) : layersFrom node l = [l] := by
  rw [layersFrom, if_neg h]

theorem pairUp_inj_of_length (hinj : ∀ a b a' b', node a b = node a' b' → a = a' ∧ b = b') :
    ∀ {l l' : List δ}, l.length = l'.length → pairUp node l = pairUp node l' → l = l'
  | [], [], _, _ => rfl
  | [a], [a'], _, h => by
    rw [(hinj _ _ _ _ (List.head_eq_of_cons_eq h)).1]
  | a :: b :: rest, a' :: b' :: rest', hlength, h => by
    obtain ⟨rfl, rfl⟩ := hinj _ _ _ _ (List.head_eq_of_cons_eq h)
    have hrest : rest.length = rest'.length := by simpa using hlength
    rw [pairUp_inj_of_length hinj hrest (List.tail_eq_of_cons_eq h)]

/-- Layers of one length with one hash at the top are one layer. -/
theorem eq_of_root_of_length (hinj : ∀ a b a' b', node a b = node a' b' → a = a' ∧ b = b')
    {l l' : List δ} {root : δ} (hlength : l.length = l'.length)
    (h : (layersFrom node l).getLast? = some [root])
    (h' : (layersFrom node l').getLast? = some [root]) : l = l' := by
  induction l using layersFrom.induct node generalizing l' with
  | case1 l hlong ih =>
    have hpairs : (pairUp node l).length = (pairUp node l').length := by
      rw [length_pairUp, length_pairUp, hlength]
    have hlong' : 1 < l'.length := hlength ▸ hlong
    rw [layersFrom, if_pos hlong, List.getLast?_cons_of_ne_nil (layersFrom_ne_nil _ _)] at h
    rw [layersFrom, if_pos hlong', List.getLast?_cons_of_ne_nil (layersFrom_ne_nil _ _)] at h'
    exact pairUp_inj_of_length hinj hlength (ih hpairs h h')
  | case2 l hshort =>
    rw [layersFrom, if_neg hshort] at h
    rw [layersFrom, if_neg (hlength ▸ hshort)] at h'
    exact (Option.some.inj h).trans (Option.some.inj h').symm

theorem mem_pairUp {h : δ} : ∀ {l : List δ}, h ∈ pairUp node l →
    ∃ a ∈ l, ∃ b ∈ l, h = node a b
  | [a], hmem => ⟨a, by simp, a, by simp, List.mem_singleton.mp hmem⟩
  | a :: b :: rest, hmem => by
    rcases List.mem_cons.mp hmem with rfl | hrest
    · exact ⟨a, by simp, b, by simp, rfl⟩
    · obtain ⟨x, hx, y, hy, rfl⟩ := mem_pairUp hrest
      exact ⟨x, by simp [hx], y, by simp [hy], rfl⟩

theorem nodup_pairUp (hinj : ∀ a b a' b', node a b = node a' b' → a = a' ∧ b = b') :
    ∀ {l : List δ}, l.Nodup → (pairUp node l).Nodup
  | [], _ => List.nodup_nil
  | [_], _ => List.nodup_singleton _
  | a :: b :: rest, h => by
    obtain ⟨ha, hb, hrest⟩ : a ∉ b :: rest ∧ b ∉ rest ∧ rest.Nodup := by
      simpa [List.nodup_cons] using h
    refine List.nodup_cons.mpr ⟨fun hmem => ?_, nodup_pairUp hinj hrest⟩
    obtain ⟨x, hx, y, -, heq⟩ := mem_pairUp hmem
    obtain ⟨rfl, -⟩ := hinj _ _ _ _ heq
    exact ha (List.mem_cons_of_mem _ hx)

/-- Where no hash is repeated, a padded layer is told from one that is not. -/
theorem pairUp_inj_of_nodup (hinj : ∀ a b a' b', node a b = node a' b' → a = a' ∧ b = b') :
    ∀ {l l' : List δ}, l.Nodup → l'.Nodup → pairUp node l = pairUp node l' → l = l'
  | [], [], _, _, _ => rfl
  | [], [_], _, _, h => nomatch h
  | [], _ :: _ :: _, _, _, h => nomatch h
  | [_], [], _, _, h => nomatch h
  | _ :: _ :: _, [], _, _, h => nomatch h
  | [a], [a'], _, _, h => by
    rw [(hinj _ _ _ _ (List.head_eq_of_cons_eq h)).1]
  | [a], b :: c :: rest, _, hnodup, h => by
    obtain ⟨rfl, rfl⟩ := hinj _ _ _ _ (List.head_eq_of_cons_eq h)
    exact absurd List.mem_cons_self (List.nodup_cons.mp hnodup).1
  | b :: c :: rest, [a], hnodup, _, h => by
    obtain ⟨rfl, rfl⟩ := hinj _ _ _ _ (List.head_eq_of_cons_eq h)
    exact absurd List.mem_cons_self (List.nodup_cons.mp hnodup).1
  | a :: b :: rest, a' :: b' :: rest', hnodup, hnodup', h => by
    obtain ⟨rfl, rfl⟩ := hinj _ _ _ _ (List.head_eq_of_cons_eq h)
    have hrest := (List.nodup_cons.mp (List.nodup_cons.mp hnodup).2).2
    have hrest' := (List.nodup_cons.mp (List.nodup_cons.mp hnodup').2).2
    rw [pairUp_inj_of_nodup hinj hrest hrest' (List.tail_eq_of_cons_eq h)]

/-- A hash that is so many layers above the leaves. -/
inductive Level (node : δ → δ → δ) (leaf : δ → Prop) : ℕ → δ → Prop where
  | leaf {h : δ} : leaf h → Level node leaf 0 h
  | node {k : ℕ} {a b : δ} : Level node leaf k a → Level node leaf k b →
      Level node leaf (k + 1) (node a b)

/-- Leaves that are no nodes tell the layers apart. -/
theorem Level.unique {leaf : δ → Prop}
    (hinj : ∀ a b a' b', node a b = node a' b' → a = a' ∧ b = b')
    (hleaf : ∀ a b, ¬ leaf (node a b)) {j k : ℕ} {h : δ} (hj : Level node leaf j h)
    (hk : Level node leaf k h) : j = k := by
  induction hj generalizing k with
  | leaf hh =>
    cases hk with
    | leaf _ => rfl
    | node _ _ => exact absurd hh (hleaf _ _)
  | @node j a b ha hb iha ihb =>
    generalize hn : node a b = n at hk
    cases hk with
    | leaf hh => exact absurd (hn ▸ hh) (hleaf a b)
    | node ha' hb' =>
      obtain ⟨rfl, rfl⟩ := hinj _ _ _ _ hn
      rw [iha ha']

/-- The hash at the top is as many layers up as there are layers above the first. -/
theorem Level.of_root {leaf : δ → Prop} {l : List δ} {root : δ} {k : ℕ}
    (hl : ∀ h ∈ l, Level node leaf k h) (h : (layersFrom node l).getLast? = some [root]) :
    Level node leaf (k + ((layersFrom node l).length - 1)) root := by
  induction l using layersFrom.induct node generalizing k with
  | case1 l hlong ih =>
    have hne := layersFrom_ne_nil node (pairUp node l)
    have hpos := List.length_pos_iff.mpr hne
    rw [layersFrom, if_pos hlong] at h ⊢
    rw [List.getLast?_cons_of_ne_nil hne] at h
    have hpairs : ∀ x ∈ pairUp node l, Level node leaf (k + 1) x := by
      intro x hx
      obtain ⟨a, ha, b, hb, rfl⟩ := mem_pairUp hx
      exact .node (hl a ha) (hl b hb)
    have htop := ih hpairs h
    rw [List.length_cons]
    have heq : k + 1 + ((layersFrom node (pairUp node l)).length - 1) =
        k + ((layersFrom node (pairUp node l)).length + 1 - 1) := by omega
    rw [← heq]
    exact htop
  | case2 l hshort =>
    rw [layersFrom, if_neg hshort] at h ⊢
    have hroot : root ∈ l := by
      have hl' : l = [root] := Option.some.inj h
      rw [hl']
      exact List.mem_singleton_self root
    exact hl root hroot

/-- Layers without repetition, under as many others, with one hash at the top are one layer. -/
theorem eq_of_root_of_nodup (hinj : ∀ a b a' b', node a b = node a' b' → a = a' ∧ b = b')
    {l l' : List δ} {root : δ} (hnodup : l.Nodup) (hnodup' : l'.Nodup)
    (hheight : (layersFrom node l).length = (layersFrom node l').length)
    (h : (layersFrom node l).getLast? = some [root])
    (h' : (layersFrom node l').getLast? = some [root]) : l = l' := by
  induction l using layersFrom.induct node generalizing l' with
  | case1 l hlong ih =>
    have hpos := List.length_pos_iff.mpr (layersFrom_ne_nil node (pairUp node l))
    rw [layersFrom_of_long hlong] at h hheight
    rw [List.getLast?_cons_of_ne_nil (layersFrom_ne_nil _ _)] at h
    by_cases hlong' : 1 < l'.length
    · rw [layersFrom_of_long hlong'] at h' hheight
      rw [List.getLast?_cons_of_ne_nil (layersFrom_ne_nil _ _)] at h'
      exact pairUp_inj_of_nodup hinj hnodup hnodup' (ih (nodup_pairUp hinj hnodup)
        (nodup_pairUp hinj hnodup') (Nat.succ.inj hheight) h h')
    · rw [layersFrom_of_short hlong', List.length_cons, List.length_singleton] at hheight
      omega
  | case2 l hshort =>
    rw [layersFrom_of_short hshort] at h hheight
    by_cases hlong' : 1 < l'.length
    · have hpos := List.length_pos_iff.mpr (layersFrom_ne_nil node (pairUp node l'))
      rw [layersFrom_of_long hlong', List.length_singleton, List.length_cons] at hheight
      omega
    · rw [layersFrom_of_short hlong'] at h'
      exact (Option.some.inj h).trans (Option.some.inj h').symm

end MerkleTree
