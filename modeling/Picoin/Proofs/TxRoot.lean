import Picoin.Proofs.MerkleSound
import Picoin.Services.Acceptance

/-!
# What the transaction root binds

The root of a block's transactions is the top of a hash tree that pads an odd layer by repeating its
last hash. A list and its padded variant have one root (`txMerkleRoot_padded`), so that the root alone
does not bind the list. It does together with the number of transactions, which a commitment has
beside it, and for lists without a repeated hash (`txMerkleRoot_binds`).
-/

namespace Picoin

open MerkleTree

variable {cfg : Config}

theorem txMerkleRoot_cons (cfg : Config) (txHash : String) (rest : List String) : ∃ root,
    (layersFrom (parentHash cfg) (txHash :: rest)).getLast? = some [root] ∧
      txMerkleRoot cfg (txHash :: rest) = root := by
  obtain ⟨root, hroot⟩ := exists_root (parentHash cfg) (txHash :: rest) (List.cons_ne_nil _ _)
  refine ⟨root, hroot, ?_⟩
  show (((layersFrom (parentHash cfg) (txHash :: rest)).getLast?.getD []).head?).getD "" = root
  rw [hroot]
  rfl

/-- The text of no transactions begins with another bracket than a node's. -/
theorem parentHash_ne_empty (hsha : Function.Injective cfg.sha256Text) (a b : String) :
    parentHash cfg a b ≠ cfg.hashJson (.arr []) := by
  intro h
  have htext := hashJson_inj hsha h
  rw [render_parent] at htext
  have hfirst := congrArg List.head? htext
  simp [Json.render, Json.renderItems] at hfirst

/-- No hash of the list is the hash of two hashes, or that of no transactions. -/
def NoTreeHash (cfg : Config) (txHashes : List String) : Prop :=
  ∀ txHash ∈ txHashes, txHash ≠ cfg.hashJson (.arr []) ∧
    ∀ left right, txHash ≠ parentHash cfg left right

/-- The root of some transactions is not that of none. -/
theorem txMerkleRoot_cons_ne_nil (hsha : Function.Injective cfg.sha256Text) {txHash : String}
    {rest : List String} (hfree : NoTreeHash cfg (txHash :: rest)) :
    txMerkleRoot cfg (txHash :: rest) ≠ txMerkleRoot cfg [] := by
  obtain ⟨root, htop, hroot⟩ := txMerkleRoot_cons cfg txHash rest
  rw [hroot]
  intro hempty
  change root = cfg.hashJson (.arr []) at hempty
  have hin := InTree.of_root htop
  rw [hempty] at hin
  generalize hvalue : cfg.hashJson (.arr []) = value at hin
  cases hin with
  | leaf hmem => exact (hfree _ hmem).1 hvalue.symm
  | node _ _ => exact parentHash_ne_empty hsha _ _ hvalue.symm

/-- **The root binds**: with a hash function that does not collide, two lists of one length with one
root are equal, and so are two lists of any lengths that do not repeat a hash. -/
theorem txMerkleRoot_binds (cfg : Config) (hsha : Function.Injective cfg.sha256Text)
    (txHashes txHashes' : List String)
    (hroot : txMerkleRoot cfg txHashes = txMerkleRoot cfg txHashes') :
    (txHashes.length = txHashes'.length → txHashes = txHashes') ∧
      (NoTreeHash cfg txHashes → NoTreeHash cfg txHashes' → txHashes.Nodup → txHashes'.Nodup →
        txHashes = txHashes') := by
  have hinj := parentHash_inj hsha
  match txHashes, txHashes', hroot with
  | [], [], _ => exact ⟨fun _ => rfl, fun _ _ _ _ => rfl⟩
  | [], _ :: _, hroot =>
    exact ⟨fun hlength => (nomatch hlength),
      fun _ hfree _ _ => absurd hroot.symm (txMerkleRoot_cons_ne_nil hsha hfree)⟩
  | _ :: _, [], hroot =>
    exact ⟨fun hlength => (nomatch hlength),
      fun hfree _ _ _ => absurd hroot (txMerkleRoot_cons_ne_nil hsha hfree)⟩
  | a :: l, b :: l', hroot =>
    obtain ⟨root, htop, hrootA⟩ := txMerkleRoot_cons cfg a l
    obtain ⟨root', htop', hrootB⟩ := txMerkleRoot_cons cfg b l'
    obtain rfl : root = root' := hrootA.symm.trans (hroot.trans hrootB)
    refine ⟨fun hlength => eq_of_root_of_length hinj hlength htop htop',
      fun hfree hfree' hnodup hnodup' => ?_⟩
    -- the root says how many layers are below it
    let leaf : String → Prop := fun h => h ∈ a :: l ∨ h ∈ b :: l'
    have hleaf : ∀ x y, ¬ leaf (parentHash cfg x y) := by
      rintro x y (hmem | hmem)
      · exact (hfree _ hmem).2 _ _ rfl
      · exact (hfree' _ hmem).2 _ _ rfl
    have hleft : ∀ h ∈ a :: l, Level (parentHash cfg) leaf 0 h := fun h hmem => .leaf (.inl hmem)
    have hright : ∀ h ∈ b :: l', Level (parentHash cfg) leaf 0 h := fun h hmem => .leaf (.inr hmem)
    have hlevel := Level.of_root hleft htop
    have hlevel' := Level.of_root hright htop'
    have hheight := hlevel.unique hinj hleaf hlevel'
    have hpos := List.length_pos_iff.mpr (layersFrom_ne_nil (parentHash cfg) (a :: l))
    have hpos' := List.length_pos_iff.mpr (layersFrom_ne_nil (parentHash cfg) (b :: l'))
    exact eq_of_root_of_nodup hinj hnodup hnodup' (by omega) htop htop'

/-! ## A padded list -/

/-- A node whose hashes begin with a letter of their own. -/
def markedConfig : Config := { localConfig with sha256Text := fun text => "h" ++ text }

theorem markedConfig_inj : Function.Injective markedConfig.sha256Text := by
  intro a b h
  have hlist := congrArg String.toList h
  exact String.toList_inj.mp (by simpa [markedConfig] using hlist)

theorem noTreeHash_marked {txHashes : List String}
    (h : ∀ txHash ∈ txHashes, txHash.toList.head? ≠ some 'h') : NoTreeHash markedConfig txHashes := by
  intro txHash hmem
  have hmarked : ∀ value, txHash ≠ markedConfig.hashJson value := by
    intro value heq
    refine h txHash hmem ?_
    rw [heq]
    simp [Config.hashJson, markedConfig]
  exact ⟨hmarked _, fun _ _ => hmarked _⟩

theorem txMerkleRoot_padded :
    ¬ ∀ (cfg : Config) (txHashes txHashes' : List String), Function.Injective cfg.sha256Text →
      NoTreeHash cfg txHashes → NoTreeHash cfg txHashes' →
        txMerkleRoot cfg txHashes = txMerkleRoot cfg txHashes' → txHashes = txHashes' := by
  intro h
  have hroot : txMerkleRoot markedConfig ["x", "y", "z"] =
      txMerkleRoot markedConfig ["x", "y", "z", "z"] := by
    simp [txMerkleRoot, layersFrom, pairUp]
  have hfree : NoTreeHash markedConfig ["x", "y", "z"] := noTreeHash_marked (by decide)
  have hfree' : NoTreeHash markedConfig ["x", "y", "z", "z"] := noTreeHash_marked (by decide)
  have heq := h markedConfig _ _ markedConfig_inj hfree hfree' hroot
  exact absurd heq (by decide)

theorem txMerkleRoot_binds_marked :
    (["x", "y"].length = ["x", "y"].length → ["x", "y"] = ["x", "y"]) ∧
      (NoTreeHash markedConfig ["x", "y"] → NoTreeHash markedConfig ["x", "y"] →
        ["x", "y"].Nodup → ["x", "y"].Nodup → ["x", "y"] = ["x", "y"]) :=
  txMerkleRoot_binds markedConfig markedConfig_inj ["x", "y"] ["x", "y"] rfl

end Picoin
