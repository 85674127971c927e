import Mathlib
import AlgorithmTrainer.Lib.Program

/-!
# `Lib.Ownership` — handles that a program is given, uses and gives back

Some calls of a program return handles (descriptors, processes), some need them, and some give them back.
`Handles` says which calls do what. The protocol `owned` is the discipline: what a request names is held at
that moment, so nothing is used or given back after it was given back.

`Owns held p post` is the triple for it: with `held` alone the program keeps the discipline, and where it
returns it holds what `post` accepts. Whatever else is held is left alone by definition, so that a program is
proved once, from what it uses, and `Owns.bind` and `Owns.frame` put it anywhere. `Owns.run` is what the
triple says of a run.
-/

namespace Interaction

/-- What the calls of a signature do with handles. -/
structure Handles (S : Signature) (H : Type) where
  /-- What a request uses or gives back. -/
  needs : S.Request → Set H
  gives : (q : S.Request) → S.Reply q → Set H
  grants : (q : S.Request) → S.Reply q → Set H
  gives_needs : ∀ q r, gives q r ⊆ needs q

namespace Handles

variable {S : Signature} {H ε α β χ σ : Type} (O : Handles S H)

/-- The discipline of what is held. Handles that are granted are not held yet. -/
def owned : Protocol S (Set H) where
  allowed held q := O.needs q ⊆ held
  admits held q r := Disjoint (O.grants q r) held
  next held q r := held \ O.gives q r ∪ O.grants q r

/-- What is held after these calls, first call first. -/
def heldAfter (l : List (Exchange S)) : Set H := O.owned.after ∅ l

/-- With these handles, whatever else is held, the program keeps the discipline, and where it returns it
    holds what `post` accepts. -/
def Owns (held : Set H) (p : Program S ε α) (post : α → Set H → Prop) : Prop :=
  ∀ frame, Disjoint held frame →
    O.owned.Follows (fun all o => ∀ a, o = .ok a →
      ∃ left, post a left ∧ Disjoint left frame ∧ all = left ∪ frame) (held ∪ frame) p

/-- It ends with what it began with. -/
def Keeps (held : Set H) (p : Program S ε α) : Prop := O.Owns held p fun _ left => left = held

variable {O} {held : Set H} {post : α → Set H → Prop} {post' : β → Set H → Prop}

theorem Owns.ret {a : α} (h : post a held) : O.Owns held (.ret a : Program S ε α) post := by
  intro frame hd a' ha
  cases ha
  exact ⟨held, h, hd, rfl⟩

theorem Owns.raise {e : ε} : O.Owns held (.raise e : Program S ε α) post :=
  fun _ _ _ h => (by cases h)

/-- **Call rule.** What is granted is new to what is held. -/
theorem Owns.call {q : S.Request} {k : S.Reply q → Program S ε α} (hneeds : O.needs q ⊆ held)
    (hk : ∀ r, Disjoint (O.grants q r) held → O.Owns (held \ O.gives q r ∪ O.grants q r) (k r) post) :
    O.Owns held (.call q k) post := by
  intro frame hd
  refine ⟨hneeds.trans Set.subset_union_left, fun r hr => ?_⟩
  obtain ⟨hheld, hframe⟩ := Set.disjoint_union_right.mp hr
  -- what is given back is no part of the frame
  have hgives : Disjoint frame (O.gives q r) := (hd.mono_left ((O.gives_needs q r).trans hneeds)).symm
  have hnext : (held ∪ frame) \ O.gives q r ∪ O.grants q r
      = (held \ O.gives q r ∪ O.grants q r) ∪ frame := by
    rw [Set.union_sdiff_distrib, hgives.sdiff_eq_left, Set.union_right_comm]
  show O.owned.Follows _ ((held ∪ frame) \ O.gives q r ∪ O.grants q r) (k r)
  rw [hnext]
  apply hk r hheld
  exact Set.disjoint_union_left.mpr ⟨hd.mono_left Set.sdiff_subset, hframe⟩

/-- The call rule where nothing is granted or given back. -/
theorem Owns.use {q : S.Request} {k : S.Reply q → Program S ε α} (hneeds : O.needs q ⊆ held)
    (hgives : ∀ r, O.gives q r = ∅) (hgrants : ∀ r, O.grants q r = ∅)
    (hk : ∀ r, O.Owns held (k r) post) : O.Owns held (.call q k) post := by
  refine .call hneeds fun r _ => ?_
  rw [hgives r, hgrants r, Set.sdiff_empty, Set.union_empty]
  exact hk r

/-- The call rule where something is given back. -/
theorem Owns.release {q : S.Request} {k : S.Reply q → Program S ε α} {given : Set H}
    (hneeds : O.needs q ⊆ held) (hgives : ∀ r, O.gives q r = given) (hgrants : ∀ r, O.grants q r = ∅)
    (hk : ∀ r, O.Owns (held \ given) (k r) post) : O.Owns held (.call q k) post := by
  refine .call hneeds fun r _ => ?_
  rw [hgives r, hgrants r, Set.union_empty]
  exact hk r

/-- The call rule where something is granted. -/
theorem Owns.grant {q : S.Request} {k : S.Reply q → Program S ε α} (hneeds : O.needs q ⊆ held)
    (hgives : ∀ r, O.gives q r = ∅)
    (hk : ∀ r, Disjoint (O.grants q r) held → O.Owns (O.grants q r ∪ held) (k r) post) :
    O.Owns held (.call q k) post := by
  refine .call hneeds fun r hr => ?_
  rw [hgives r, Set.sdiff_empty, Set.union_comm]
  exact hk r hr

theorem Owns.mono {post' : α → Set H → Prop} {p : Program S ε α} (hp : O.Owns held p post)
    (hpost : ∀ a left, post a left → post' a left) : O.Owns held p post' := by
  intro frame hd
  refine (hp frame hd).mono fun all o h a ha => ?_
  obtain ⟨left, hleft, h⟩ := h a ha
  exact ⟨left, hpost a left hleft, h⟩

/-- **Sequencing rule.** -/
theorem Owns.bind {p : Program S ε α} {f : α → Program S ε β} (hp : O.Owns held p post)
    (hf : ∀ a left, post a left → O.Owns left (f a) post') : O.Owns held (p >>= f) post' := by
  intro frame hd
  refine (hp frame hd).bind (fun all a h => ?_) fun all e _ b hb => by cases hb
  obtain ⟨left, hleft, hd', rfl⟩ := h a rfl
  exact hf a left hleft frame hd'

/-- **Frame rule.** A program leaves alone what it does not use. -/
theorem Owns.frame {kept : Set H} {p : Program S ε α} (hp : O.Owns held p post) (hd : Disjoint held kept) :
    O.Owns (held ∪ kept) p fun a all => ∃ left, post a left ∧ Disjoint left kept ∧ all = left ∪ kept := by
  intro frame hframe
  obtain ⟨hheld, hkept⟩ := Set.disjoint_union_left.mp hframe
  rw [Set.union_assoc]
  refine (hp (kept ∪ frame) (Set.disjoint_union_right.mpr ⟨hd, hheld⟩)).mono fun all o h a ha => ?_
  obtain ⟨left, hleft, hd', rfl⟩ := h a ha
  obtain ⟨hd₁, hd₂⟩ := Set.disjoint_union_right.mp hd'
  refine ⟨left ∪ kept, ⟨left, hleft, hd₁, rfl⟩, ?_, (Set.union_assoc ..).symm⟩
  exact Set.disjoint_union_left.mpr ⟨hd₂, hkept⟩

theorem Keeps.bind {p : Program S ε α} {f : α → Program S ε β} (hp : O.Keeps held p)
    (hf : ∀ a, O.Owns held (f a) post') : O.Owns held (p >>= f) post' := by
  refine Owns.bind hp fun a left hleft => ?_
  rw [hleft]
  exact hf a

/-- What uses nothing leaves everything as it is. -/
theorem Keeps.anywhere {p : Program S ε α} (hp : O.Keeps ∅ p) (held : Set H) : O.Keeps held p := by
  have h := Owns.frame hp (Set.empty_disjoint held)
  rw [Set.empty_union] at h
  refine h.mono fun a all hall => ?_
  obtain ⟨left, rfl, -, rfl⟩ := hall
  exact Set.empty_union held

/-! ## Runs -/

/-- What is held after these calls was held before them, or one of them granted it. -/
theorem granted_of_after {l : List (Exchange S)} {h : H} (hh : h ∈ O.owned.after held l) :
    h ∈ held ∨ ∃ x ∈ l, h ∈ O.grants x.request x.reply := by
  induction l generalizing held with
  | nil => exact Or.inl hh
  | cons x l ih =>
      rcases ih hh with hheld | ⟨y, hy, hgrants⟩
      · rcases hheld with ⟨hheld, -⟩ | hgrants
        · exact Or.inl hheld
        · exact Or.inr ⟨x, List.mem_cons_self, hgrants⟩
      · exact Or.inr ⟨y, List.mem_cons_of_mem x hy, hgrants⟩


/-- The service grants what is not held, as long as requests name what is held: `I` tells its states by what
    is held. -/
def Grants (O : Handles S H) (V : Service S χ σ) (I : Set H → σ → Prop) : Prop :=
  ∀ held q c s, O.needs q ⊆ held → I held s → Disjoint (O.grants q (V q c s).1) held ∧
    I (held \ O.gives q (V q c s).1 ∪ O.grants q (V q c s).1) (V q c s).2

/-- **Run rule.** Every request of a run names what is held when it is made, and a run that returns ends with
    what the triple says. -/
theorem Owns.run {V : Service S χ σ} {I : Set H → σ → Prop} (hV : O.Grants V I) {p : Program S ε α}
    (hp : O.Owns ∅ p post) {w : World χ σ} (hI : I ∅ w.state) :
    (∀ l x l', p.log V w = l ++ x :: l' → O.needs x.request ⊆ O.heldAfter l) ∧
      ∀ a, (p.run V w).1 = .ok a → post a (O.heldAfter (p.log V w)) := by
  have hfollows := hp ∅ (Set.disjoint_empty _)
  rw [Set.union_empty] at hfollows
  refine ⟨fun l x l' hlog => ?_, fun a ha => ?_⟩
  · exact hfollows.allowed_of_log (A := O.owned) (V := V) (I := I) hV hI hlog
  · obtain ⟨h, -⟩ := hfollows.run_after (A := O.owned) (V := V) (I := I) hV hI
    obtain ⟨left, hleft, -, hall⟩ := h a ha
    rw [Set.union_empty] at hall
    unfold heldAfter
    rw [hall]
    exact hleft

end Handles
end Interaction
