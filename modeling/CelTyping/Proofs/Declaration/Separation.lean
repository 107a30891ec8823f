import CelTyping.Proofs.Declaration.Storage
import CelTyping.Proofs.Sequences
import CelTyping.Proofs.Ty.Acceptance
import Mathlib.Data.List.Pairwise

/-!
# Overloads that do not overlap

An overload that overlaps one of another id is refused, so one expects that no two overloads of a
function ever overlap.  The exception is an overload that is declared again: it takes the place of
the earlier declaration as soon as the two signatures are equivalent, before it was compared with
the overloads after that place.  Equivalence does not look at exceptions for `null`.  An overload
that is declared again with an exception for `null` that the earlier declaration did not make may
therefore overlap an overload that was declared between the two (`redeclared_overlaps`).

What always holds is that no two overloads overlap once exceptions for `null` are left out, and
that they do not overlap with them either as long as no such exception is added by declaring an
overload again (`overloads_separate`).

## The argument

`place_cases` says what adding an overload can do.  A relation between overloads that follows from
not overlapping, and passes from an overload to the one that takes its place, is kept by every
addition (`place_apart`), hence by merging (`addOverloads_apart`) and by every way to put a function
together (`Construction.build_apart`).  The two statements above are two such relations.  All this is
about the list of overloads; that the table and its order say the same is
`CelTyping.Proofs.Declaration.Storage`.
-/

namespace CelTyping

namespace Overload

/-- No type of an argument has a custom rule of acceptance. -/
def Ordinary (o : Overload) : Prop := ∀ t ∈ o.args, t.Ordinary

instance (o : Overload) : Decidable o.Ordinary :=
  inferInstanceAs (Decidable (∀ t ∈ o.args, t.Ordinary))

/-- The overload without the exceptions that its arguments make for `null`. -/
def strict (o : Overload) : Overload := { o with args := o.args.map Ty.strict }

theorem ordinary_strict (o : Overload) : o.strict.Ordinary :=
  List.forall_mem_map.mpr fun t _ => t.ordinary_strict

/-! ## Signatures -/

theorem sameSignature_iff {a b : Overload} : a.sameSignature b = true ↔
    a.id = b.id ∧ a.isMember = b.isMember ∧ Ty.agreeAll false a.args b.args = true ∧
      a.result.isEquivalent b.result = true := by
  unfold sameSignature
  simp [and_assoc]

theorem sameSignature_refl (o : Overload) : o.sameSignature o = true :=
  sameSignature_iff.mpr ⟨rfl, rfl, Ty.agreeAll_refl _, Ty.isEquivalent_refl _⟩

theorem sameSignature_symm {a b : Overload} (h : a.sameSignature b = true) :
    b.sameSignature a = true := by
  obtain ⟨hid, hmember, hargs, hresult⟩ := sameSignature_iff.mp h
  exact sameSignature_iff.mpr
    ⟨hid.symm, hmember.symm, Ty.agreeAll_symm hargs, Ty.isEquivalent_symm hresult⟩

theorem sameSignature_trans {a b c : Overload} (hab : a.sameSignature b = true)
    (hbc : b.sameSignature c = true) : a.sameSignature c = true := by
  obtain ⟨hid, hmember, hargs, hresult⟩ := sameSignature_iff.mp hab
  obtain ⟨hid', hmember', hargs', hresult'⟩ := sameSignature_iff.mp hbc
  exact sameSignature_iff.mpr ⟨hid.trans hid', hmember.trans hmember',
    Ty.agreeAll_trans hargs hargs', Ty.isEquivalent_trans hresult hresult'⟩

/-! ## Overlapping -/

theorem eitherAccepts_comm : ∀ as bs : List Ty, eitherAccepts as bs = eitherAccepts bs as
  | [], [] => rfl
  | [], _ :: _ => rfl
  | _ :: _, [] => rfl
  | a :: as, b :: bs => by
    rw [eitherAccepts, eitherAccepts, Bool.or_comm, eitherAccepts_comm as bs]

theorem overlaps_comm (a b : Overload) : a.overlaps b = b.overlaps a := by
  unfold overlaps
  rw [eitherAccepts_comm, BEq.comm]

theorem eitherAccepts_mono : ∀ {as bs others : List Ty}, (∀ a ∈ as, a.Ordinary) →
    (∀ b ∈ bs, b.Ordinary) → (∀ x ∈ others, x.Ordinary) → Ty.agreeAll false as bs = true →
    Ty.allNullsWithin as bs = true → eitherAccepts as others = true →
    eitherAccepts bs others = true
  | [], [], _, _, _, _, _, _, h => h
  | [], _ :: _, _, _, _, _, h, _, _ => absurd h (by simp [Ty.agreeAll])
  | _ :: _, [], _, _, _, _, h, _, _ => absurd h (by simp [Ty.agreeAll])
  | _ :: _, _ :: _, [], _, _, _, _, _, h => absurd h (by simp [eitherAccepts])
  | a :: as, b :: bs, x :: others, has, hbs, hxs, hagree, hnulls, h => by
    obtain ⟨ha, has⟩ := List.forall_mem_cons.mp has
    obtain ⟨hb, hbs⟩ := List.forall_mem_cons.mp hbs
    obtain ⟨hx, hxs⟩ := List.forall_mem_cons.mp hxs
    rw [Ty.agreeAll, Bool.and_eq_true] at hagree
    rw [Ty.allNullsWithin, Bool.and_eq_true] at hnulls
    rw [eitherAccepts, Bool.and_eq_true, Bool.or_eq_true] at h ⊢
    refine ⟨h.1.imp (ha.accepts_mono hb hagree.1 hnulls.1) fun hxa => ?_,
      eitherAccepts_mono has hbs hxs hagree.2 hnulls.2 h.2⟩
    rw [← hx.accepts_congr hagree.1]
    exact hxa

/-- One overload stands for another of an equivalent signature and makes no further exceptions for
`null`. -/
structure Narrows (o e : Overload) : Prop where
  /-- The call style is the same. -/
  isMember : o.isMember = e.isMember
  /-- The types of the arguments are equivalent. -/
  args : Ty.agreeAll false o.args e.args = true
  /-- The other overload makes every exception for `null`. -/
  nulls : Ty.allNullsWithin o.args e.args = true

/-- What an overload overlaps the one that it narrows overlaps. -/
theorem Narrows.overlaps {o e x : Overload} (h : o.Narrows e) (ho : o.Ordinary) (he : e.Ordinary)
    (hx : x.Ordinary) (hover : o.overlaps x = true) : e.overlaps x = true := by
  unfold Overload.overlaps at hover ⊢
  rw [Bool.and_eq_true] at hover ⊢
  rw [← h.isMember]
  exact ⟨hover.1, eitherAccepts_mono ho he hx h.args h.nulls hover.2⟩

theorem Narrows.not_overlaps {o e x : Overload} (h : o.Narrows e) (ho : o.Ordinary)
    (he : e.Ordinary) (hx : x.Ordinary) (hsep : e.overlaps x = false) : o.overlaps x = false := by
  cases hover : o.overlaps x with
  | false => rfl
  | true => exact hsep ▸ (h.overlaps ho he hx hover).symm

/-- One overload declares another again and takes its place. -/
structure Replaces (o e : Overload) : Prop where
  /-- The two have the same id, call style and arity, and equivalent types. -/
  signature : e.sameSignature o = true
  /-- Both take errors and unknown values as arguments, or none does. -/
  nonStrict : e.nonStrict = o.nonStrict
  /-- The later declaration brings an implementation. -/
  implementation : o.hasImplementation = true

instance (o e : Overload) : Decidable (o.Replaces e) :=
  decidable_of_iff
    (e.sameSignature o = true ∧ e.nonStrict = o.nonStrict ∧ o.hasImplementation = true)
    ⟨fun h => ⟨h.1, h.2.1, h.2.2⟩, fun h => ⟨h.signature, h.nonStrict, h.implementation⟩⟩

theorem Replaces.agrees {o e : Overload} (h : o.Replaces e) :
    o.id = e.id ∧ o.isMember = e.isMember ∧ Ty.agreeAll false o.args e.args = true := by
  have hsame := h.signature
  unfold sameSignature at hsame
  simp only [Bool.and_eq_true, beq_iff_eq] at hsame
  exact ⟨hsame.1.1.1.symm, hsame.1.1.2.symm, Ty.agreeAll_symm hsame.1.2⟩

theorem Replaces.narrows {o e : Overload} (h : o.Replaces e)
    (hnulls : Ty.allNullsWithin o.args e.args = true) : o.Narrows e :=
  ⟨h.agrees.2.1, h.agrees.2.2, hnulls⟩

theorem strict_narrows (o : Overload) : o.strict.Narrows o where
  isMember := rfl
  args := Ty.agreeAll_strict fun t _ => t.isEquivalent_strict
  nulls := Ty.allNullsWithin_strict fun t _ => t.nullsWithin_strict

/-- Without exceptions for `null`, what takes the place of an overload narrows it. -/
theorem Replaces.strict_narrows {o e : Overload} (h : o.Replaces e) :
    o.strict.Narrows e.strict where
  isMember := h.agrees.2.1
  args := Ty.agreeAll_trans (Overload.strict_narrows o).args
    (Ty.agreeAll_trans h.agrees.2.2 (Ty.agreeAll_symm (Overload.strict_narrows e).args))
  nulls := Ty.allNullsWithin_strict fun t _ => t.nullsWithin_strict

/-- Overloads that do not overlap do not do so without exceptions for `null`. -/
theorem not_overlaps_strict {a b : Overload} (ha : a.Ordinary) (hb : b.Ordinary)
    (h : a.overlaps b = false) : a.strict.overlaps b.strict = false := by
  have hleft : a.strict.overlaps b = false :=
    a.strict_narrows.not_overlaps a.ordinary_strict ha hb h
  rw [overlaps_comm] at hleft ⊢
  exact b.strict_narrows.not_overlaps b.ordinary_strict hb a.ordinary_strict hleft

end Overload

namespace FunctionDecl

/-! ## Adding an overload -/

/-- **What adding an overload can do**: it goes to the end, if none has its id and none overlaps it,
or it meets the overload with its id, which stays or is replaced. -/
theorem place_cases {function : String} {o : Overload} : ∀ {os os' : List Overload},
    place function o os = .ok os' →
    ((∀ e ∈ os, e.id ≠ o.id ∧ e.overlaps o = false) ∧ os' = os ++ [o]) ∨
      ∃ before e after, os = before ++ e :: after ∧
        (os' = os ∨ (o.Replaces e ∧ os' = before ++ o :: after))
  | [], os', h => by
    rw [place] at h
    exact Or.inl ⟨by simp, (Except.ok.inj h).symm⟩
  | e :: rest, os', h => by
    rw [place] at h
    split at h
    · next hid =>
      split at h
      · next hsame =>
        rw [Bool.and_eq_true, beq_iff_eq] at hsame
        refine Or.inr ⟨[], e, rest, rfl, ?_⟩
        cases himpl : o.hasImplementation with
        | false =>
          rw [himpl] at h
          exact Or.inl (Except.ok.inj h).symm
        | true =>
          rw [himpl] at h
          exact Or.inr ⟨⟨hsame.1, hsame.2, himpl⟩, (Except.ok.inj h).symm⟩
      · exact absurd h (by simp)
    · next hid =>
      split at h
      · exact absurd h (by simp)
      · next hover =>
        cases hrest : place function o rest with
        | error err =>
          rw [hrest] at h
          exact absurd h (by simp [Except.map])
        | ok rest' =>
          rw [hrest] at h
          obtain rfl : e :: rest' = os' := Except.ok.inj h
          rcases place_cases hrest with ⟨hnew, rfl⟩ | ⟨before, e', after, rfl, rfl | ⟨hrep, rfl⟩⟩
          · refine Or.inl ⟨List.forall_mem_cons.mpr ⟨⟨hid, ?_⟩, hnew⟩, rfl⟩
            exact Bool.not_eq_true _ ▸ hover
          · exact Or.inr ⟨e :: before, e', after, rfl, Or.inl rfl⟩
          · exact Or.inr ⟨e :: before, e', after, rfl, Or.inr ⟨hrep, rfl⟩⟩

theorem mem_of_mem_place {function : String} {o x : Overload} {os os' : List Overload}
    (h : place function o os = .ok os') (hx : x ∈ os') : x ∈ os ∨ x = o := by
  rcases place_cases h with ⟨-, rfl⟩ | ⟨before, e, after, rfl, rfl | ⟨-, rfl⟩⟩
  · simpa using hx
  · exact Or.inl hx
  · simp only [List.mem_append, List.mem_cons] at hx ⊢
    rcases hx with hx | rfl | hx
    · exact Or.inl (Or.inl hx)
    · exact Or.inr rfl
    · exact Or.inl (Or.inr (Or.inr hx))

/-- Any two overloads have different ids and are in a relation. -/
def Apart (R : Overload → Overload → Prop) (os : List Overload) : Prop :=
  os.Pairwise fun a b => a.id ≠ b.id ∧ R a b

section Apart

variable {R : Overload → Overload → Prop} (hsymm : ∀ a b, R a b → R b a)

include hsymm

theorem Apart.of_mem {os : List Overload} (h : Apart R os) {a b : Overload} (ha : a ∈ os)
    (hb : b ∈ os) (hid : a.id ≠ b.id) : R a b := by
  have hflip : Std.Symm fun a b : Overload => a.id ≠ b.id ∧ R a b :=
    ⟨fun _ _ hab => ⟨hab.1.symm, hsymm _ _ hab.2⟩⟩
  exact (List.Pairwise.forall h ha hb fun heq => hid (heq ▸ rfl)).2

/-- **Adding an overload keeps the others apart**, if what takes the place of an overload is in
relation with whatever that overload was in relation with. -/
theorem place_apart {function : String} {o : Overload} {os os' : List Overload}
    (hnew : ∀ e ∈ os, e.overlaps o = false → R e o)
    (hreplace : ∀ e ∈ os, o.Replaces e → ∀ x ∈ os, R e x → R o x)
    (h : Apart R os) (hplace : place function o os = .ok os') : Apart R os' := by
  rcases place_cases hplace with ⟨hfresh, rfl⟩ | ⟨before, e, after, rfl, rfl | ⟨hrep, rfl⟩⟩
  · refine List.pairwise_append.mpr ⟨h, List.pairwise_singleton _ _, fun e he x hx => ?_⟩
    obtain rfl := List.mem_singleton.mp hx
    exact ⟨(hfresh e he).1, hnew e he (hfresh e he).2⟩
  · exact h
  · have hmove : ∀ x ∈ before ++ e :: after, R e x → R o x := hreplace e (by simp) hrep
    obtain ⟨hbefore, hafter, hacross⟩ := List.pairwise_append.mp h
    obtain ⟨hhead, hafter⟩ := List.pairwise_cons.mp hafter
    refine List.pairwise_append.mpr ⟨hbefore, List.pairwise_cons.mpr ⟨fun x hx => ?_, hafter⟩,
      fun a ha x hx => ?_⟩
    · rw [hrep.agrees.1]
      exact ⟨(hhead x hx).1, hmove x (by simp [hx]) (hhead x hx).2⟩
    · rcases List.mem_cons.mp hx with rfl | hx
      · obtain ⟨hne, hae⟩ := hacross a ha e List.mem_cons_self
        rw [hrep.agrees.1]
        exact ⟨hne, hsymm _ _ (hmove a (by simp [ha]) (hsymm _ _ hae))⟩
      · exact hacross a ha x (List.mem_cons_of_mem e hx)

end Apart

theorem Apart.nodup_ids {R : Overload → Overload → Prop} {os : List Overload} (h : Apart R os) :
    (os.map Overload.id).Nodup :=
  List.pairwise_map.mpr (h.imp And.left)

/-! ## Adding several overloads -/

theorem place_of_addOverload {f g : FunctionDecl} {o : Overload} (h : f.addOverload o = .ok g) :
    place f.name o f.overloads = .ok g.overloads := by
  unfold addOverload at h
  cases hplace : place f.name o f.overloads with
  | error err =>
    rw [hplace] at h
    exact absurd h (by simp [Except.map])
  | ok os =>
    rw [hplace] at h
    rw [← Except.ok.inj h]

theorem addOverloads_cons_iff {f g : FunctionDecl} {o : Overload} {os : List Overload} :
    f.addOverloads (o :: os) = .ok g ↔
      ∃ k, f.addOverload o = .ok k ∧ k.addOverloads os = .ok g := by
  unfold addOverloads
  rw [List.foldlM_cons, bind_eq_ok_iff]

theorem addOverloads_cons {f g : FunctionDecl} {o : Overload} {os : List Overload}
    (h : f.addOverloads (o :: os) = .ok g) :
    ∃ k, f.addOverload o = .ok k ∧ k.addOverloads os = .ok g :=
  addOverloads_cons_iff.mp h

theorem mem_of_mem_addOverloads {x : Overload} {g : FunctionDecl} {os : List Overload} :
    ∀ {f : FunctionDecl}, f.addOverloads os = .ok g → x ∈ g.overloads →
      x ∈ f.overloads ∨ x ∈ os := by
  induction os with
  | nil =>
    intro f h hx
    obtain rfl : f = g := Except.ok.inj h
    exact Or.inl hx
  | cons o os ih =>
    intro f h hx
    obtain ⟨k, hadd, hrest⟩ := addOverloads_cons h
    rcases ih hrest hx with hx | hx
    · rcases mem_of_mem_place (place_of_addOverload hadd) hx with hx | rfl
      · exact Or.inl hx
      · exact Or.inr List.mem_cons_self
    · exact Or.inr (List.mem_cons_of_mem o hx)

/-- Adding overloads changes neither the name of a function nor whether it is to be found. -/
theorem addOverloads_unchanged {g : FunctionDecl} {os : List Overload} :
    ∀ {f : FunctionDecl}, f.addOverloads os = .ok g → g.name = f.name ∧ g.state = f.state := by
  induction os with
  | nil =>
    intro f h
    obtain rfl : f = g := Except.ok.inj h
    exact ⟨rfl, rfl⟩
  | cons o os ih =>
    intro f h
    obtain ⟨k, hadd, hrest⟩ := addOverloads_cons h
    obtain ⟨hname, hstate⟩ := ih hrest
    rw [hname, hstate]
    unfold addOverload at hadd
    cases hplace : place f.name o f.overloads with
    | error err =>
      rw [hplace] at hadd
      exact absurd hadd (by simp [Except.map])
    | ok os =>
      rw [hplace] at hadd
      rw [← Except.ok.inj hadd]
      exact ⟨rfl, rfl⟩

/-- Merging adds the overloads of one function to those of the other, under the name of both. -/
theorem addOverloads_of_merge {f g h : FunctionDecl} (hmerge : f.merge g = .ok h) :
    ∃ k, f.addOverloads g.overloads = .ok k ∧ h.overloads = k.overloads ∧ h.name = g.name ∧
      h.state = if g.state = .unspecified then f.state else g.state := by
  unfold merge at hmerge
  split at hmerge
  · next hname =>
    cases hadd : f.addOverloads g.overloads with
    | error err =>
      rw [hadd] at hmerge
      exact absurd hmerge (by simp [bind, Except.bind])
    | ok k =>
      rw [hadd] at hmerge
      cases hsingle : mergeSingleton f.name f.singleton g.singleton with
      | error err =>
        rw [hsingle] at hmerge
        exact absurd hmerge (by simp [bind, Except.bind])
      | ok singleton =>
        rw [hsingle] at hmerge
        obtain rfl := Except.ok.inj hmerge
        exact ⟨k, rfl, rfl, (addOverloads_unchanged hadd).1.trans hname, rfl⟩
  · exact absurd hmerge (by simp)

/-- **Adding overloads of different ids keeps overloads apart.**  Each of them takes the place of
an overload that was there before, if it takes the place of one at all. -/
theorem addOverloads_apart {R : Overload → Overload → Prop} (hsymm : ∀ a b, R a b → R b a)
    {A : Overload → Prop} (hnew : ∀ e o, A e → A o → e.overlaps o = false → R e o)
    {g : FunctionDecl} {os : List Overload} : ∀ {f : FunctionDecl}, (os.map Overload.id).Nodup →
    (∀ e ∈ f.overloads, ∀ o ∈ os, o.Replaces e → ∀ x, A x → R e x → R o x) →
    (∀ x ∈ f.overloads, A x) → (∀ x ∈ os, A x) → Apart R f.overloads →
    f.addOverloads os = .ok g → Apart R g.overloads := by
  induction os with
  | nil =>
    intro f _ _ _ _ h hadd
    obtain rfl : f = g := Except.ok.inj hadd
    exact h
  | cons o os ih =>
    intro f hnodup hreplace hf hos h hadd
    obtain ⟨k, hfirst, hrest⟩ := addOverloads_cons hadd
    have hplace := place_of_addOverload hfirst
    obtain ⟨ho, hos⟩ := List.forall_mem_cons.mp hos
    obtain ⟨hfresh, hnodup⟩ := List.nodup_cons.mp hnodup
    have hmem : ∀ {x}, x ∈ k.overloads → x ∈ f.overloads ∨ x = o := mem_of_mem_place hplace
    refine ih hnodup (fun e he o' ho' hrep => ?_) (fun x hx => ?_) hos ?_ hrest
    · rcases hmem he with he | rfl
      · exact hreplace e he o' (List.mem_cons_of_mem o ho') hrep
      · exact absurd (List.mem_map.mpr ⟨o', ho', hrep.agrees.1⟩) hfresh
    · rcases hmem hx with hx | rfl
      · exact hf x hx
      · exact ho
    · refine place_apart hsymm (fun e he => hnew e o (hf e he) ho) (fun e he hrep x hx => ?_) h
        hplace
      exact hreplace e he o List.mem_cons_self hrep x (hf x hx)

/-! ## Finding overloads by their ids -/

/-- Every overload is found under its id, as ids are different. -/
theorem find?_id_of_apart {R : Overload → Overload → Prop} {f : FunctionDecl}
    (h : Apart R f.overloads) {o : Overload} (ho : o ∈ f.overloads) : f.find? o.id = some o := by
  obtain ⟨before, after, hsplit⟩ := List.append_of_mem ho
  unfold Apart at h
  rw [hsplit] at h
  have hbefore := (List.pairwise_append.mp h).2.2
  unfold find?
  rw [List.find?_eq_some_iff_append]
  refine ⟨by simp, before, after, hsplit, fun e he => ?_⟩
  simpa using (hbefore e he o List.mem_cons_self).1

end FunctionDecl

/-! ## Putting functions together -/

/-- A way to put a function together from its name, by adding overloads to it and by merging it with
other functions that were put together. -/
inductive Construction where
  /-- A function without overloads. -/
  | new (name : String)
  /-- Add an overload. -/
  | add (c : Construction) (o : Overload)
  /-- Merge with another function. -/
  | merge (c d : Construction)

namespace Construction

/-- The function that was put together; what is refused changes nothing. -/
def build : Construction → FunctionDecl
  | new name => .ofName name
  | add c o => (c.build.addOverload o).toOption.getD c.build
  | merge c d => (c.build.merge d.build).toOption.getD c.build

/-- The function that was put together with its overloads stored by id. -/
def stored : Construction → StoredFunction
  | new name => .ofName name
  | add c o => (c.stored.addOverload o).toOption.getD c.stored
  | merge c d => (c.stored.merge d.stored).toOption.getD c.stored

/-- The overloads that were declared, refused ones included. -/
def declared : Construction → List Overload
  | new _ => []
  | add c o => c.declared ++ [o]
  | merge c d => c.declared ++ d.declared

/-- Whenever an overload takes the place of another, the two are in a relation. -/
def Redeclares (P : Overload → Overload → Prop) : Construction → Prop
  | new _ => True
  | add c o => c.Redeclares P ∧ ((c.build.addOverload o).isOk = true →
      ∀ e ∈ c.build.overloads, o.Replaces e → P e o)
  | merge c d => c.Redeclares P ∧ ((c.build.merge d.build).isOk = true →
      ∀ e ∈ c.build.overloads, ∀ o ∈ d.build.overloads, o.Replaces e → P e o)

/-- An overload that takes the place of another makes no exception for `null` in the types of its
arguments where the other makes none. -/
def KeepsNulls : Construction → Prop :=
  Redeclares fun e o => Ty.allNullsWithin o.args e.args = true

instance decidableRedeclares (P : Overload → Overload → Prop) [∀ e o, Decidable (P e o)] :
    ∀ c : Construction, Decidable (c.Redeclares P)
  | new _ => inferInstanceAs (Decidable True)
  | add c _ =>
    have := decidableRedeclares P c
    inferInstanceAs (Decidable (_ ∧ (_ → _)))
  | merge c _ =>
    have := decidableRedeclares P c
    inferInstanceAs (Decidable (_ ∧ (_ → _)))

instance (c : Construction) : Decidable c.KeepsNulls :=
  inferInstanceAs (Decidable (c.Redeclares fun e o => Ty.allNullsWithin o.args e.args = true))

theorem redeclares_trivially (c : Construction) : c.Redeclares fun _ _ => True := by
  induction c with
  | new name => trivial
  | add c o ih => exact ⟨ih, fun _ _ _ _ => trivial⟩
  | merge c d ihc _ => exact ⟨ihc, fun _ _ _ _ _ _ => trivial⟩

theorem mem_declared {c : Construction} {o : Overload} (ho : o ∈ c.build.overloads) :
    o ∈ c.declared := by
  induction c with
  | new name => exact absurd ho List.not_mem_nil
  | add c x ih =>
    rw [build] at ho
    rw [declared, List.mem_append, List.mem_singleton]
    cases hadd : c.build.addOverload x with
    | error err =>
      rw [hadd] at ho
      exact Or.inl (ih ho)
    | ok g =>
      rw [hadd] at ho
      exact (FunctionDecl.mem_of_mem_place (FunctionDecl.place_of_addOverload hadd) ho).imp_left ih
  | merge c d ihc ihd =>
    rw [build] at ho
    rw [declared, List.mem_append]
    cases hmerge : c.build.merge d.build with
    | error err =>
      rw [hmerge] at ho
      exact Or.inl (ihc ho)
    | ok g =>
      rw [hmerge] at ho
      obtain ⟨k, hadd, hk, -⟩ := FunctionDecl.addOverloads_of_merge hmerge
      have hok : o ∈ k.overloads := hk ▸ ho
      exact (FunctionDecl.mem_of_mem_addOverloads hadd hok).imp ihc ihd

/-- **Overloads stay apart however a function is put together**, for a relation that follows from
not overlapping and passes on to the overload that takes another's place. -/
theorem build_apart {R P : Overload → Overload → Prop} {A : Overload → Prop}
    (hsymm : ∀ a b, R a b → R b a) (hnew : ∀ e o, A e → A o → e.overlaps o = false → R e o)
    (hreplace : ∀ e o, A e → A o → o.Replaces e → P e o → ∀ x, A x → R e x → R o x)
    {c : Construction} (hA : ∀ o ∈ c.declared, A o) (hP : c.Redeclares P) :
    FunctionDecl.Apart R c.build.overloads := by
  induction c generalizing R P A with
  | new name => exact List.Pairwise.nil
  | add c o ih =>
    rw [declared, List.forall_mem_append, List.forall_mem_singleton] at hA
    obtain ⟨hc, ho⟩ := hA
    have hstored : ∀ x ∈ c.build.overloads, A x := fun x hx => hc x (mem_declared hx)
    have hbuilt := ih hsymm hnew hreplace hc hP.1
    rw [build]
    cases hadd : c.build.addOverload o with
    | error err => exact hbuilt
    | ok g =>
      have hrelated := hP.2 (by rw [hadd]; rfl)
      refine FunctionDecl.place_apart hsymm (fun e he => hnew e o (hstored e he) ho) ?_ hbuilt
        (FunctionDecl.place_of_addOverload hadd)
      intro e he hrep x hx
      exact hreplace e o (hstored e he) ho hrep (hrelated e he hrep) x (hstored x hx)
  | merge c d ihc ihd =>
    rw [declared, List.forall_mem_append] at hA
    obtain ⟨hc, hd⟩ := hA
    have hstoredc : ∀ x ∈ c.build.overloads, A x := fun x hx => hc x (mem_declared hx)
    have hstoredd : ∀ x ∈ d.build.overloads, A x := fun x hx => hd x (mem_declared hx)
    have hbuilt := ihc hsymm hnew hreplace hc hP.1
    -- of the other function it only matters that its ids are different
    have hids : FunctionDecl.Apart (fun _ _ => True) d.build.overloads :=
      ihd (A := fun _ => True) (fun _ _ h => h) (fun _ _ _ _ _ => trivial)
        (fun _ _ _ _ _ _ _ _ h => h) (fun _ _ => trivial) d.redeclares_trivially
    rw [build]
    cases hmerge : c.build.merge d.build with
    | error err => exact hbuilt
    | ok g =>
      have hrelated := hP.2 (by rw [hmerge]; rfl)
      obtain ⟨k, hadd, hk, -⟩ := FunctionDecl.addOverloads_of_merge hmerge
      show FunctionDecl.Apart R g.overloads
      rw [hk]
      refine FunctionDecl.addOverloads_apart hsymm hnew hids.nodup_ids ?_ hstoredc hstoredd hbuilt
        hadd
      intro e he o ho hrep
      exact hreplace e o (hstoredc e he) (hstoredd o ho) hrep (hrelated e he o ho hrep)

/-- **However a function is put together, its overloads are stored as they are listed**, each under
its own id, and the ordinals list the ids. -/
theorem stored_spec (c : Construction) : c.stored.Keyed ∧ c.stored.toDecl = c.build := by
  induction c with
  | new name => exact ⟨StoredFunction.keyed_ofName name, rfl⟩
  | add c o ih =>
    obtain ⟨hkeyed, hdecl⟩ := ih
    have hadd := StoredFunction.toDecl_addOverload hkeyed o
    rw [hdecl] at hadd
    rw [stored, build, ← hadd]
    cases hstored : c.stored.addOverload o with
    | error e => exact ⟨hkeyed, hdecl⟩
    | ok f => exact ⟨hkeyed.addOverload hstored, rfl⟩
  | merge c d ihc ihd =>
    obtain ⟨hkeyed, hdecl⟩ := ihc
    have hmerge := StoredFunction.toDecl_merge hkeyed d.stored
    rw [hdecl, ihd.2] at hmerge
    rw [stored, build, ← hmerge]
    cases hstored : c.stored.merge d.stored with
    | error e => exact ⟨hkeyed, hdecl⟩
    | ok f => exact ⟨hkeyed.merge hstored, rfl⟩

/-- What is stored under an id is listed, and has this id. -/
theorem mem_overloads_of_stored {c : Construction} {id : String} {o : Overload}
    (h : c.stored.table.find? id = some o) : o ∈ c.build.overloads ∧ o.id = id := by
  obtain ⟨hkeyed, hdecl⟩ := c.stored_spec
  have hid : id ∈ c.stored.ordinals :=
    (hkeyed.mem_ordinals id).mpr (Option.isSome_of_eq_some h)
  rw [← hdecl]
  exact ⟨List.mem_filterMap.mpr ⟨id, hid, h⟩, hkeyed.id_eq h⟩

end Construction

/-- **No two overloads of a function overlap, exceptions for `null` aside.**  However a function is
put together from overloads without custom rules of acceptance, its ordinals list the keys of the
table of its overloads, each once; every overload is stored under its own id; and no two that are
stored under different ids overlap when exceptions for `null` are left out.  If no overload is
declared again with further exceptions for `null`, no two overlap at all. -/
theorem overloads_separate (c : Construction) (hc : ∀ o ∈ c.declared, o.Ordinary) :
    c.stored.Keyed ∧ c.stored.toDecl = c.build ∧
    (∀ i j a b, i ≠ j → c.stored.table.find? i = some a → c.stored.table.find? j = some b →
      a.strict.overlaps b.strict = false) ∧
    (c.KeepsNulls → ∀ i j a b, i ≠ j → c.stored.table.find? i = some a →
      c.stored.table.find? j = some b → a.overlaps b = false) := by
  have hsymm : ∀ a b : Overload, a.overlaps b = false → b.overlaps a = false := by
    intro a b h
    rw [Overload.overlaps_comm]
    exact h
  have hstrict : FunctionDecl.Apart (fun a b => a.strict.overlaps b.strict = false)
      c.build.overloads := by
    refine Construction.build_apart (fun a b => hsymm a.strict b.strict)
      (fun e o he ho => Overload.not_overlaps_strict he ho) ?_ hc c.redeclares_trivially
    intro e o _ _ hrep _ x _
    exact hrep.strict_narrows.not_overlaps o.ordinary_strict e.ordinary_strict x.ordinary_strict
  refine ⟨c.stored_spec.1, c.stored_spec.2, fun i j a b hne ha hb => ?_,
    fun hkeeps i j a b hne ha hb => ?_⟩
  · obtain ⟨hmem, rfl⟩ := Construction.mem_overloads_of_stored ha
    obtain ⟨hmem', rfl⟩ := Construction.mem_overloads_of_stored hb
    exact hstrict.of_mem (fun a b => hsymm a.strict b.strict) hmem hmem' hne
  · obtain ⟨hmem, rfl⟩ := Construction.mem_overloads_of_stored ha
    obtain ⟨hmem', rfl⟩ := Construction.mem_overloads_of_stored hb
    have hseparate : FunctionDecl.Apart (fun a b => a.overlaps b = false) c.build.overloads := by
      refine Construction.build_apart hsymm (fun _ _ _ _ h => h) ?_ hc hkeeps
      intro e o he ho hrep hnulls x hx
      exact (hrep.narrows hnulls).not_overlaps ho he hx
    exact hseparate.of_mem hsymm hmem hmem' hne

/-- A wrapped integer declared again as an integer, after a text and behind a merge. -/
def rewrapped : Construction :=
  .merge
    (.add (.add (.new "f") (.global "f_wrapped" [.nullable .int] .bool))
      (.global "f_string" [.string] .bool))
    (.add (.new "f") ((Overload.global "f_wrapped" [.int] .bool).implementedBy ⟨"id", .unary some⟩))

/-- Dropping an exception for `null` is no harm: the three declarations give two overloads that do
not overlap. -/
theorem overloads_separate_rewrapped :
    (∀ o ∈ rewrapped.declared, o.Ordinary) ∧ rewrapped.KeepsNulls ∧
    rewrapped.stored.ordinals = ["f_wrapped", "f_string"] ∧ rewrapped.stored.Keyed ∧
    ∃ a b, rewrapped.stored.table.find? "f_wrapped" = some a ∧
      rewrapped.stored.table.find? "f_string" = some b ∧ a.overlaps b = false := by
  have hordinary : ∀ o ∈ rewrapped.declared, o.Ordinary := by decide +kernel
  have hkeeps : rewrapped.KeepsNulls := by decide +kernel
  obtain ⟨hkeyed, -, -, hseparate⟩ := overloads_separate rewrapped hordinary
  obtain ⟨a, ha⟩ := Option.isSome_iff_exists.mp
    (show (rewrapped.stored.table.find? "f_wrapped").isSome = true by decide +kernel)
  obtain ⟨b, hb⟩ := Option.isSome_iff_exists.mp
    (show (rewrapped.stored.table.find? "f_string").isSome = true by decide +kernel)
  exact ⟨hordinary, hkeeps, by decide +kernel, hkeyed, a, b, ha, hb,
    hseparate hkeeps _ _ a b (by decide) ha hb⟩

/-- An integer declared again as a wrapped integer, after `null`. -/
def wrappedLate : Construction :=
  .add (.add (.add (.new "f") (.global "f_int" [.int] .bool)) (.global "f_null" [.null] .bool))
    ((Overload.global "f_int" [.nullable .int] .bool).implementedBy ⟨"id", .unary some⟩)

/-- **A redeclared overload may overlap**: once `f_int` is declared again for wrapped integers, it
and `f_null` both accept `null`.  Had `f_null` been declared first, the same declaration would have
been refused. -/
theorem redeclared_overlaps :
    (∀ o ∈ wrappedLate.declared, o.Ordinary) ∧
    ((wrappedLate.stored.table.find? "f_int").any fun a =>
      (wrappedLate.stored.table.find? "f_null").any fun b => a.overlaps b) = true ∧
    FunctionDecl.place "f"
        ((Overload.global "f_int" [.nullable .int] .bool).implementedBy ⟨"id", .unary some⟩)
        [.global "f_null" [.null] .bool, .global "f_int" [.int] .bool] =
      .error (.overloadCollision "f" "f_int" "f_null") := by
  refine ⟨by decide +kernel, by decide +kernel, ?_⟩
  rw [FunctionDecl.place, if_neg (by decide +kernel), if_pos (by decide +kernel)]
  rfl

end CelTyping
