import Picoin.Forge.EpochEngine
import Picoin.Lib.Run
import Picoin.Proofs.RequestLifeCycle

/-!
# Epochs that are closed once

Nothing keeps two calls of `close_epoch` apart: both read one number, write one file and return a
settlement of one epoch (`epoch_settled_twice`). In runs where a call that writes its file finds the
number as it has read it and no file yet, and where no call stops between its last transaction and its
return, every epoch is closed once (`EpochsClosedOnce`).

* **`EpochEvent.Fits`** — what a step must find;
* **`Closing`** — the invariant: at most one call is between its file and the last transaction;
* **`epochs_closed_once_of_run`** — every state that such a run reaches.
-/

namespace Picoin.Forge.Coordinator

/-- Every number is settled by one call, whose file stays; the numbers that are put into `epoch_state`
follow one another; a returned settlement is one of these, and none is returned twice. Where no call is
under way, all of them are returned. -/
structure EpochsClosedOnce (s : EpochState) : Prop where
  settledOnce : (s.writes.map EpochSettlement.epochId).Nodup
  filesKept : ∀ settlement ∈ s.writes, s.files.find? settlement.epochId = some settlement
  consecutive : s.advances.map EpochSettlement.epochId =
    (List.range s.advances.length).map fun i : ℕ => (i : ℤ) + 1
  returnedOnce : (s.returned.map EpochSettlement.epochId).Nodup
  returned : ∀ settlement ∈ s.returned, settlement ∈ s.advances ∧ settlement ∈ s.writes
  complete : (∀ call, s.calls.find? call = none) → s.returned.Perm s.advances

/-- What a step must find: the number as the call has read it and no file of it, when the file is
written; a call that has made its last transaction does not stop. -/
def EpochEvent.Fits (s : EpochState) : EpochEvent → Prop
  | .write call => ∀ settlement, s.calls.find? call = some (.built settlement) →
      settlement.epochId = s.currentEpoch + 1 ∧ s.files.find? settlement.epochId = none
  | .stop call => ∀ settlement, s.calls.find? call ≠ some (.advanced settlement)
  | _ => True

/-- The condition can be checked along a run. -/
instance decidableFits (s : EpochState) : ∀ event, Decidable (EpochEvent.Fits s event)
  | .start .. => .isTrue trivial
  | .build .. => .isTrue trivial
  | .write call =>
    match hcall : s.calls.find? call with
    | some (.built settlement) =>
      decidable_of_iff
        (settlement.epochId = s.currentEpoch + 1 ∧ s.files.find? settlement.epochId = none)
        ⟨fun h other hother => by
          rw [hcall] at hother
          cases hother
          exact h, fun h => h settlement hcall⟩
    | none | some (.opened ..) | some (.written _) | some (.advanced _) =>
      .isTrue fun other hother => by
        rw [hcall] at hother
        cases hother
  | .advance _ => .isTrue trivial
  | .finish _ => .isTrue trivial
  | .stop call =>
    match hcall : s.calls.find? call with
    | some (.advanced settlement) => .isFalse fun h => h settlement hcall
    | none | some (.opened ..) | some (.built _) | some (.written _) =>
      .isTrue fun other hother => by
        rw [hcall] at hother
        cases hother

/-- The invariant of the calls and of what they have written. -/
structure Closing (s : EpochState) : Prop where
  current : s.currentEpoch = s.advances.length
  settledOnce : (s.writes.map EpochSettlement.epochId).Nodup
  filesKept : ∀ settlement ∈ s.writes, s.files.find? settlement.epochId = some settlement
  consecutive : s.advances.map EpochSettlement.epochId =
    (List.range s.advances.length).map fun i : ℕ => (i : ℤ) + 1
  advanced : ∀ settlement ∈ s.advances, settlement ∈ s.writes
  returned : ∀ settlement ∈ s.returned, settlement ∈ s.advances
  returnedOnce : s.returned.Nodup
  /-- The call between its file and its last transaction. -/
  next : ∀ call settlement, s.calls.find? call = some (.written settlement) →
    settlement ∈ s.writes ∧ settlement.epochId = s.currentEpoch + 1
  alone : ∀ call call' settlement settlement', s.calls.find? call = some (.written settlement) →
    s.calls.find? call' = some (.written settlement') → call = call'
  /-- The calls behind their last transaction. -/
  last : ∀ call settlement, s.calls.find? call = some (.advanced settlement) →
    settlement ∈ s.advances ∧ settlement ∉ s.returned
  apart : ∀ call call' settlement, s.calls.find? call = some (.advanced settlement) →
    s.calls.find? call' = some (.advanced settlement) → call = call'
  accounted : ∀ settlement ∈ s.advances, settlement ∈ s.returned ∨
    ∃ call, s.calls.find? call = some (.advanced settlement)

/-! ## Numbers -/

theorem Closing.nodup_advances {s : EpochState} (h : Closing s) : s.advances.Nodup := by
  refine List.Nodup.of_map EpochSettlement.epochId ?_
  rw [h.consecutive]
  exact (List.nodup_range).map fun i j hij => by simpa using hij

theorem Closing.epochId_le {s : EpochState} (h : Closing s) {settlement : EpochSettlement}
    (hmem : settlement ∈ s.advances) : settlement.epochId ≤ s.currentEpoch := by
  have hid := List.mem_map_of_mem (f := EpochSettlement.epochId) hmem
  rw [h.consecutive] at hid
  obtain ⟨i, hi, heq⟩ := List.mem_map.mp hid
  have hlt := List.mem_range.mp hi
  rw [h.current]
  omega

theorem Closing.closedOnce {s : EpochState} (h : Closing s) : EpochsClosedOnce s where
  settledOnce := h.settledOnce
  filesKept := h.filesKept
  consecutive := h.consecutive
  returnedOnce := by
    have hids : (s.advances.map EpochSettlement.epochId).Nodup := by
      rw [h.consecutive]
      exact (List.nodup_range).map fun i j hij => by simpa using hij
    exact h.returnedOnce.map_on fun x hx y hy heq =>
      List.inj_on_of_nodup_map hids (h.returned x hx) (h.returned y hy) heq
  returned settlement hmem := ⟨h.returned _ hmem, h.advanced _ (h.returned _ hmem)⟩
  complete hover := by
    refine (List.perm_ext_iff_of_nodup h.returnedOnce h.nodup_advances).mpr fun settlement =>
      ⟨h.returned settlement, fun hmem => ?_⟩
    rcases h.accounted settlement hmem with hreturned | ⟨call, hcall⟩
    · exact hreturned
    · rw [hover call] at hcall
      cases hcall

theorem Closing.initDb : Closing .initDb where
  current := rfl
  settledOnce := List.nodup_nil
  filesKept _ h := nomatch h
  consecutive := rfl
  advanced _ h := nomatch h
  returned _ h := nomatch h
  returnedOnce := List.nodup_nil
  next _ _ h := nomatch h
  alone _ _ _ _ h := nomatch h
  last _ _ h := nomatch h
  apart _ _ _ h := nomatch h
  accounted _ h := nomatch h

/-! ## Calls -/

theorem find?_at (s : EpochState) (call : ℕ) (stage : EpochCall) (c : ℕ) :
    (s.at call stage).calls.find? c = if c = call then some stage else s.calls.find? c :=
  Sql.Table.find?_upsert _ _ _ _

theorem find?_without (s : EpochState) (call c : ℕ) :
    (s.without call).calls.find? c = if c = call then none else s.calls.find? c := by
  unfold EpochState.without
  dsimp only
  split
  · rename_i heq
    rw [Sql.Table.find?_eq_none_iff, heq]
    intro hmem
    obtain ⟨r, hr, hkey⟩ := List.mem_map.mp hmem
    have hother := (List.mem_filter.mp hr).2
    rw [hkey] at hother
    simp at hother
  · rename_i hne
    cases hfind : s.calls.find? c with
    | some stage => exact Sql.Table.find?_filterRows_of hfind (decide_eq_true hne)
    | none =>
      rw [Sql.Table.find?_eq_none_iff] at hfind ⊢
      exact fun hmem => hfind ((List.filter_sublist.map Prod.fst).subset hmem)

/-- Calls that come no further than they were, with the same ones behind their last transaction. -/
theorem Closing.withCalls {s : EpochState} (h : Closing s) {calls : Sql.Table ℕ EpochCall}
    (hwritten : ∀ c settlement, calls.find? c = some (.written settlement) →
      s.calls.find? c = some (.written settlement))
    (hadvanced : ∀ c settlement, calls.find? c = some (.advanced settlement) ↔
      s.calls.find? c = some (.advanced settlement)) : Closing { s with calls } :=
  { h with
    next := fun c settlement hc => h.next c settlement (hwritten c settlement hc)
    alone := fun c c' x x' hc hc' => h.alone c c' x x' (hwritten c x hc) (hwritten c' x' hc')
    last := fun c settlement hc => h.last c settlement ((hadvanced c settlement).mp hc)
    apart := fun c c' x hc hc' => h.apart c c' x ((hadvanced c x).mp hc) ((hadvanced c' x).mp hc')
    accounted := fun settlement hmem => (h.accounted settlement hmem).imp_right
      fun ⟨c, hc⟩ => ⟨c, (hadvanced c settlement).mpr hc⟩ }

/-- A call that goes on without a write, and is not between its file and its return. -/
theorem Closing.goOn {s : EpochState} (h : Closing s) {call : ℕ} {stage : EpochCall}
    (hbefore : ∀ settlement, s.calls.find? call ≠ some (.advanced settlement))
    (hwritten : ∀ settlement, stage ≠ .written settlement)
    (hadvanced : ∀ settlement, stage ≠ .advanced settlement) : Closing (s.at call stage) := by
  refine h.withCalls (fun c settlement hc => ?_) fun c settlement => ?_
  · rw [Sql.Table.find?_upsert] at hc
    split at hc
    · exact absurd (Option.some.inj hc) (hwritten settlement)
    · exact hc
  · rw [Sql.Table.find?_upsert]
    split
    · rename_i heq
      exact iff_of_false (fun hc => hadvanced settlement (Option.some.inj hc))
        (heq ▸ hbefore settlement)
    · exact Iff.rfl

/-- A call that ends before its last transaction. -/
theorem Closing.stop {s : EpochState} (h : Closing s) {call : ℕ}
    (hbefore : ∀ settlement, s.calls.find? call ≠ some (.advanced settlement)) :
    Closing (s.without call) := by
  refine h.withCalls (fun c settlement hc => ?_) fun c settlement => ?_
  · change (s.without call).calls.find? c = _ at hc
    rw [find?_without] at hc
    split at hc
    · cases hc
    · exact hc
  · change (s.without call).calls.find? c = _ ↔ _
    rw [find?_without]
    split
    · rename_i heq
      exact iff_of_false (fun hc => by cases hc) (heq ▸ hbefore settlement)
    · exact Iff.rfl

/-- The file of the next number is written, by the only call between its file and its last transaction:
another one would have left a file of that number. -/
theorem Closing.write {s : EpochState} (h : Closing s) {call : ℕ} {settlement : EpochSettlement}
    (hcall : s.calls.find? call = some (.built settlement))
    (hnumber : settlement.epochId = s.currentEpoch + 1)
    (hfile : s.files.find? settlement.epochId = none) :
    Closing { s.at call (.written settlement) with
      files := s.files.upsert settlement.epochId settlement
      writes := s.writes ++ [settlement] } := by
  have hnew : ∀ old ∈ s.writes, old.epochId ≠ settlement.epochId := by
    intro old hold heq
    have hfound := h.filesKept old hold
    rw [heq, hfile] at hfound
    cases hfound
  -- a written settlement that is not yet in `epoch_state` would have this number
  have hnobody : ∀ c old, s.calls.find? c ≠ some (.written old) := by
    intro c old hc
    obtain ⟨hold, hid⟩ := h.next c old hc
    exact hnew old hold (hid.trans hnumber.symm)
  have hwritten : ∀ c x, (s.at call (.written settlement)).calls.find? c = some (.written x) →
      c = call ∧ x = settlement := by
    intro c x hc
    rw [find?_at] at hc
    split at hc
    · rename_i heq
      cases hc
      exact ⟨heq, rfl⟩
    · exact absurd hc (hnobody c x)
  have hlast : ∀ c x, (s.at call (.written settlement)).calls.find? c = some (.advanced x) →
      s.calls.find? c = some (.advanced x) := by
    intro c x hc
    rw [find?_at] at hc
    split at hc
    · cases hc
    · exact hc
  refine ⟨h.current, ?_, fun x hx => ?_, h.consecutive,
    fun x hx => List.mem_append_left _ (h.advanced x hx), h.returned, h.returnedOnce,
    fun c x hc => ?_, fun c c' x x' hc hc' => ?_, fun c x hc => h.last c x (hlast c x hc),
    fun c c' x hc hc' => h.apart c c' x (hlast c x hc) (hlast c' x hc'), fun x hx => ?_⟩
  · show ((s.writes ++ [settlement]).map EpochSettlement.epochId).Nodup
    rw [List.map_append, List.map_singleton]
    refine List.nodup_append.mpr ⟨h.settledOnce, List.nodup_singleton _, fun a ha b hb => ?_⟩
    obtain ⟨old, hold, rfl⟩ := List.mem_map.mp ha
    rw [List.mem_singleton.mp hb]
    exact hnew old hold
  · show (s.files.upsert settlement.epochId settlement).find? x.epochId = some x
    rcases List.mem_append.mp hx with hold | hlast
    · rw [Sql.Table.find?_upsert_ne _ _ (hnew x hold)]
      exact h.filesKept x hold
    · rw [List.mem_singleton.mp hlast, Sql.Table.find?_upsert_self]
  · obtain ⟨-, rfl⟩ := hwritten c x hc
    exact ⟨List.mem_append_right _ (List.mem_singleton_self _), hnumber⟩
  · exact (hwritten c x hc).1.trans (hwritten c' x' hc').1.symm
  · refine (h.accounted x hx).imp_right ?_
    rintro ⟨c, hc⟩
    refine ⟨c, ?_⟩
    have hne : c ≠ call := by
      rintro rfl
      rw [hcall] at hc
      cases hc
    show (s.at call (.written settlement)).calls.find? c = _
    rw [find?_at, if_neg hne, hc]

/-- The next number is put into `epoch_state`. -/
theorem Closing.advance {s : EpochState} (h : Closing s) {call : ℕ} {settlement : EpochSettlement}
    (hcall : s.calls.find? call = some (.written settlement)) :
    Closing { s.at call (.advanced settlement) with
      currentEpoch := settlement.epochId
      advances := s.advances ++ [settlement] } := by
  obtain ⟨hmem, hnumber⟩ := h.next call settlement hcall
  -- the settlements that were put into `epoch_state` have smaller numbers
  have hnew : settlement ∉ s.advances := by
    intro hold
    have hle := h.epochId_le hold
    omega
  have hwritten : ∀ c x, (s.at call (.advanced settlement)).calls.find? c ≠ some (.written x) := by
    intro c x hc
    rw [find?_at] at hc
    split at hc
    · cases hc
    · rename_i hne
      exact hne (h.alone c call x settlement hc hcall)
  have hlast : ∀ c x, (s.at call (.advanced settlement)).calls.find? c = some (.advanced x) →
      c = call ∧ x = settlement ∨ s.calls.find? c = some (.advanced x) := by
    intro c x hc
    rw [find?_at] at hc
    split at hc
    · rename_i heq
      cases hc
      exact .inl ⟨heq, rfl⟩
    · exact .inr hc
  refine ⟨?_, h.settledOnce, h.filesKept, ?_, fun x hx => ?_,
    fun x hx => List.mem_append_left _ (h.returned x hx), h.returnedOnce,
    fun c x hc => absurd hc (hwritten c x), fun c _ x _ hc _ => absurd hc (hwritten c x),
    fun c x hc => ?_, fun c c' x hc hc' => ?_, fun x hx => ?_⟩
  · show settlement.epochId = ((s.advances ++ [settlement]).length : ℕ)
    rw [hnumber, h.current, List.length_append, List.length_singleton]
    push_cast
    rfl
  · show (s.advances ++ [settlement]).map EpochSettlement.epochId = _
    rw [List.map_append, h.consecutive, List.length_append, List.length_singleton, List.range_succ,
      List.map_append, List.map_singleton, List.map_singleton, hnumber, h.current]
  · rcases List.mem_append.mp hx with hold | hlast
    · exact h.advanced x hold
    · rw [List.mem_singleton.mp hlast]
      exact hmem
  · rcases hlast c x hc with ⟨-, rfl⟩ | hold
    · exact ⟨List.mem_append_right _ (List.mem_singleton_self _),
        fun hreturned => hnew (h.returned _ hreturned)⟩
    · obtain ⟨hin, hout⟩ := h.last c x hold
      exact ⟨List.mem_append_left _ hin, hout⟩
  -- two calls with the same settlement: the new one is nobody else's
  · rcases hlast c x hc with ⟨hc₁, hx₁⟩ | hold <;> rcases hlast c' x hc' with ⟨hc₂, hx₂⟩ | hold'
    · exact hc₁.trans hc₂.symm
    · exact absurd (hx₁ ▸ (h.last c' x hold').1) hnew
    · exact absurd (hx₂ ▸ (h.last c x hold).1) hnew
    · exact h.apart c c' x hold hold'
  · rcases List.mem_append.mp hx with hold | hself
    · refine (h.accounted x hold).imp_right ?_
      rintro ⟨c, hc⟩
      refine ⟨c, ?_⟩
      have hne : c ≠ call := by
        rintro rfl
        rw [hcall] at hc
        cases hc
      show (s.at call (.advanced settlement)).calls.find? c = _
      rw [find?_at, if_neg hne, hc]
    · rw [List.mem_singleton.mp hself]
      exact .inr ⟨call, by
        show (s.at call (.advanced settlement)).calls.find? call = _
        rw [find?_at, if_pos rfl]⟩

theorem Closing.finish {s : EpochState} (h : Closing s) {call : ℕ} {settlement : EpochSettlement}
    (hcall : s.calls.find? call = some (.advanced settlement)) :
    Closing { s.without call with returned := s.returned ++ [settlement] } := by
  obtain ⟨hin, hout⟩ := h.last call settlement hcall
  have hkept : ∀ c stage, (s.without call).calls.find? c = some stage →
      c ≠ call ∧ s.calls.find? c = some stage := by
    intro c stage hc
    rw [find?_without] at hc
    split at hc
    · cases hc
    · rename_i hne
      exact ⟨hne, hc⟩
  refine ⟨h.current, h.settledOnce, h.filesKept, h.consecutive, h.advanced, fun x hx => ?_, ?_,
    fun c x hc => h.next c x (hkept c _ hc).2,
    fun c c' x x' hc hc' => h.alone c c' x x' (hkept c _ hc).2 (hkept c' _ hc').2,
    fun c x hc => ?_, fun c c' x hc hc' => h.apart c c' x (hkept c _ hc).2 (hkept c' _ hc').2,
    fun x hx => ?_⟩
  · rcases List.mem_append.mp hx with hold | hlast
    · exact h.returned x hold
    · rw [List.mem_singleton.mp hlast]
      exact hin
  · refine List.nodup_append.mpr ⟨h.returnedOnce, List.nodup_singleton _, fun a ha b hb => ?_⟩
    rw [List.mem_singleton.mp hb]
    rintro rfl
    exact hout ha
  · obtain ⟨hne, hold⟩ := hkept c _ hc
    obtain ⟨hmem, hnot⟩ := h.last c x hold
    refine ⟨hmem, fun hreturned => ?_⟩
    rcases List.mem_append.mp hreturned with hbefore | hself
    · exact hnot hbefore
    · rw [List.mem_singleton.mp hself] at hold
      exact hne (h.apart c call settlement hold hcall)
  -- what this call had advanced is returned now
  · rcases h.accounted x hx with hreturned | ⟨c, hc⟩
    · exact .inl (List.mem_append_left _ hreturned)
    · by_cases heq : c = call
      · rw [heq, hcall] at hc
        cases hc
        exact .inl (List.mem_append_right _ (List.mem_singleton_self _))
      · exact .inr ⟨c, by
          show (s.without call).calls.find? c = _
          rw [find?_without, if_neg heq, hc]⟩

/-! ## Runs -/

theorem Closing.step {s : EpochState} (h : Closing s) (fc : ForgeConfig) {event : EpochEvent}
    (hfits : event.Fits s) : Closing (epochStep fc s event) := by
  -- one lemma for each place that a call can be at
  cases event with
  | start call reward =>
    simp only [epochStep]
    split
    · rename_i hnone
      exact h.goOn (fun _ hc => by rw [hnone] at hc; cases hc) (fun _ hc => by cases hc)
        fun _ hc => by cases hc
    · exact h
  | build call workers timestamp =>
    simp only [epochStep]
    split
    · rename_i hopened
      exact h.goOn (fun _ hc => by rw [hopened] at hc; cases hc) (fun _ hc => by cases hc)
        fun _ hc => by cases hc
    · exact h
  | write call =>
    simp only [epochStep]
    split
    · rename_i settlement hbuilt
      obtain ⟨hnumber, hfile⟩ := hfits settlement hbuilt
      exact h.write hbuilt hnumber hfile
    · exact h
  | advance call =>
    simp only [epochStep]
    split
    · rename_i hwritten
      exact h.advance hwritten
    · exact h
  | finish call =>
    simp only [epochStep]
    split
    · rename_i hadvanced
      exact h.finish hadvanced
    · exact h
  | stop call => exact h.stop hfits

/-- **Epochs are closed once** in every state of a run whose steps fit. -/
theorem epochs_closed_once_of_run (fc : ForgeConfig) (events : List EpochEvent)
    (hrun : Run.EachStep (epochStep fc) EpochEvent.Fits .initDb events) :
    ∀ s ∈ Run.states (epochStep fc) .initDb events, EpochsClosedOnce s := by
  intro s hs
  have hstep : ∀ s event, Closing s → EpochEvent.Fits s event → Closing (epochStep fc s event) :=
    fun _ _ h hfits => h.step fc hfits
  exact (Run.invariant_of_eachStep hstep events .initDb Closing.initDb hrun s hs).closedOnce

/-! ## Two calls at once -/

/-- Both calls read the number, and each of them makes its other steps. -/
def overlapping : List EpochEvent :=
  [.start 1 100000000, .start 2 200000000, .build 1 [] "2026-05-10T00:00:00Z",
    .build 2 [] "2026-05-10T00:00:01Z", .write 1, .write 2, .advance 1, .advance 2, .finish 1, .finish 2]

/-- One call after the other, of which the second stops before it has written anything. -/
def oneAfterTheOther : List EpochEvent :=
  [.start 1 100000000, .build 1 [] "2026-05-10T00:00:00Z", .write 1, .advance 1, .finish 1,
    .start 2 200000000, .build 2 [] "2026-05-10T00:00:01Z", .stop 2,
    .start 3 300000000, .build 3 [] "2026-05-10T00:00:02Z", .write 3, .advance 3, .finish 3]

theorem epochs_closed_once_local :
    (oneAfterTheOther.foldl (epochStep localForge) .initDb).returned.map EpochSettlement.epochId =
        [1, 2] ∧
      ∀ s ∈ Run.states (epochStep localForge) .initDb oneAfterTheOther, EpochsClosedOnce s := by
  have hrun : Run.EachStep (epochStep localForge) EpochEvent.Fits .initDb oneAfterTheOther := by
    decide +kernel
  exact ⟨by decide +kernel, epochs_closed_once_of_run localForge oneAfterTheOther hrun⟩

/-- The file of the first call is replaced by that of the second, and both return epoch 1. -/
theorem epoch_settled_twice :
    ¬ EpochsClosedOnce (overlapping.foldl (epochStep localForge) .initDb) := by
  intro h
  have hids := h.returnedOnce
  have hboth : (overlapping.foldl (epochStep localForge) .initDb).returned.map
      EpochSettlement.epochId = [1, 1] := rfl
  rw [hboth] at hids
  exact absurd hids (by decide)

end Picoin.Forge.Coordinator
