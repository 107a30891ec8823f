import CelTyping.Proofs.Declaration.Separation
import CelTyping.Proofs.Unification.Generality

/-!
# Merging declarations is associative

Merging adds the overloads of one declaration to those of another one by one.  Each is compared with
the overloads that are there by then, in their order, and the comparison stops at the first overload
that has its id.  Whether the whole succeeds, and with what, is therefore not clear from the two
declarations.

For overloads without special rules of acceptance it can be read off them.

* Two declarations can be merged exactly when they agree (`FunctionDecl.Agrees`): overloads of one
  id say the same, overloads of two ids do not overlap, and shared implementations are the same.
  The overloads that an early stop leaves out need no comparison, since none of them overlaps the
  one with the same id, which says the same as the new one (`place_eq_ok_iff`).
* The result is the two declarations laid over one another (`FunctionDecl.joined`): the overloads of
  the first in their places, each renewed by an implementation in the second, then those of the
  second that the first does not have (`merge_eq_ok_iff`).

Laying over is associative as it stands (`layered_assoc`, `joined_assoc`).  Agreement goes through
it because an overload that is renewed says what it said before (`agrees_joined_left`).
-/

namespace CelTyping

namespace Overload

/-! ## Overloads that say the same -/

/-- No type of an argument has a special rule of acceptance. -/
def Structural (o : Overload) : Prop := ∀ t ∈ o.args, t.Structural

instance (o : Overload) : Decidable o.Structural :=
  inferInstanceAs (Decidable (∀ t ∈ o.args, t.Structural))

theorem Structural.ordinary {o : Overload} (h : o.Structural) : o.Ordinary :=
  fun t ht => (h t ht).ordinary

theorem Structural.strict_eq_self {o : Overload} (h : o.Structural) : o.strict = o := by
  have hargs : o.args.map Ty.strict = o.args := by
    rw [List.map_congr_left fun t ht => (h t ht).strict_eq_self]
    exact List.map_id _
  unfold strict
  rw [hargs]

/-- One overload says again what another says, up to implementations and traits. -/
structure Restates (o e : Overload) : Prop where
  /-- The two have the same id, call style and arity, and equivalent types. -/
  signature : e.sameSignature o = true
  /-- Both take errors and unknown values as arguments, or none does. -/
  nonStrict : e.nonStrict = o.nonStrict

namespace Restates

variable {a b c o e x : Overload}

theorem refl (o : Overload) : o.Restates o := ⟨o.sameSignature_refl, rfl⟩

theorem symm (h : o.Restates e) : e.Restates o :=
  ⟨sameSignature_symm h.signature, h.nonStrict.symm⟩

theorem trans (hab : a.Restates b) (hbc : b.Restates c) : a.Restates c :=
  ⟨sameSignature_trans hbc.signature hab.signature, hbc.nonStrict.trans hab.nonStrict⟩

theorem id_eq (h : o.Restates e) : o.id = e.id := (sameSignature_iff.mp h.signature).1.symm

theorem narrows (h : o.Restates e) (ho : o.Structural) : o.Narrows e where
  isMember := (sameSignature_iff.mp h.signature).2.1.symm
  args := Ty.agreeAll_symm (sameSignature_iff.mp h.signature).2.2.1
  nulls := by
    rw [← ho.strict_eq_self]
    exact Ty.allNullsWithin_strict fun t _ => t.nullsWithin_strict

/-- Overloads that say the same overlap the same overloads. -/
theorem overlaps_eq (h : o.Restates e) (ho : o.Structural) (he : e.Structural)
    (hx : x.Structural) : o.overlaps x = e.overlaps x :=
  Bool.eq_iff_iff.mpr
    ⟨(h.narrows ho).overlaps ho.ordinary he.ordinary hx.ordinary,
      (h.symm.narrows he).overlaps he.ordinary ho.ordinary hx.ordinary⟩

end Restates

/-- Two overloads can be overloads of one function: under one id they say the same, and under two
they do not overlap. -/
structure Compatible (a b : Overload) : Prop where
  /-- Under one id they say the same. -/
  restates : a.id = b.id → b.Restates a
  /-- Under two ids they do not overlap. -/
  separate : a.id ≠ b.id → a.overlaps b = false

namespace Compatible

variable {a b o e x : Overload}

theorem of_eq (hid : a.id = b.id) : a.Compatible b ↔ b.Restates a :=
  ⟨fun h => h.restates hid, fun h => ⟨fun _ => h, fun hne => absurd hid hne⟩⟩

theorem of_ne (hid : a.id ≠ b.id) : a.Compatible b ↔ a.overlaps b = false :=
  ⟨fun h => h.separate hid, fun h => ⟨fun heq => absurd heq hid, fun _ => h⟩⟩

theorem symm (h : a.Compatible b) : b.Compatible a where
  restates hid := (h.restates hid.symm).symm
  separate hid := overlaps_comm b a ▸ h.separate hid.symm

/-- Overloads that say the same are compatible with the same overloads. -/
theorem congr (h : o.Restates e) (ho : o.Structural) (he : e.Structural) (hx : x.Structural) :
    o.Compatible x ↔ e.Compatible x := by
  by_cases hid : e.id = x.id
  · rw [of_eq hid, of_eq (h.id_eq.trans hid)]
    exact ⟨fun hxo => hxo.trans h, fun hxe => hxe.trans h.symm⟩
  · rw [of_ne hid, of_ne fun hox => hid (h.id_eq.symm.trans hox), h.overlaps_eq ho he hx]

end Compatible

/-! ## Laying overloads over others -/

/-- What an overload becomes when others are added: the one with its id takes its place if it brings
an implementation. -/
def renewed (news : List Overload) (e : Overload) : Overload :=
  ((news.find? fun o => o.id == e.id).filter hasImplementation).getD e

/-- Overloads in their places, renewed by others, and then those of the others with new ids. -/
def layered (os news : List Overload) : List Overload :=
  os.map (renewed news) ++ news.filter fun o => o.id ∉ os.map Overload.id

variable {os news : List Overload} {e o x : Overload}

theorem id_of_find? {id : String} (h : os.find? (fun x => x.id == id) = some o) : o.id = id := by
  have hid := List.find?_some h
  exact eq_of_beq hid

theorem find?_eq_none_iff {id : String} :
    os.find? (fun x => x.id == id) = none ↔ id ∉ os.map Overload.id := by
  simp [List.find?_eq_none]

/-- An overload stays as it is, or one of the others with its id takes its place. -/
theorem renewed_cases (news : List Overload) (e : Overload) :
    renewed news e = e ∨ (renewed news e ∈ news ∧ (renewed news e).id = e.id) := by
  unfold renewed
  cases hfind : news.find? fun o => o.id == e.id with
  | none => exact Or.inl rfl
  | some o =>
    cases himpl : o.hasImplementation with
    | false => exact Or.inl (by simp [Option.filter, himpl])
    | true =>
      refine Or.inr ?_
      simpa [Option.filter, himpl] using ⟨List.mem_of_find?_eq_some hfind, id_of_find? hfind⟩

@[simp] theorem renewed_id (news : List Overload) (e : Overload) :
    (renewed news e).id = e.id := by
  rcases renewed_cases news e with h | ⟨-, h⟩
  · rw [h]
  · exact h

theorem renewed_eq_self (h : e.id ∉ news.map Overload.id) : renewed news e = e := by
  unfold renewed
  rw [find?_eq_none_iff.mpr h]
  rfl

theorem ids_layered (os news : List Overload) : (layered os news).map Overload.id =
    os.map Overload.id ++ (news.map Overload.id).filter fun id => id ∉ os.map Overload.id := by
  unfold layered
  rw [List.map_append, List.map_map, List.filter_map]
  congr 1
  exact List.map_congr_left fun e _ => renewed_id news e

theorem mem_ids_layered {id : String} : id ∈ (layered os news).map Overload.id ↔
    id ∈ os.map Overload.id ∨ id ∈ news.map Overload.id := by
  rw [ids_layered, List.mem_append, List.mem_filter, decide_eq_true_iff]
  tauto

/-- Under an id stands what stood there before, renewed, or else what is added. -/
theorem find?_layered (os news : List Overload) (id : String) :
    (layered os news).find? (fun o => o.id == id) =
      ((os.find? fun o => o.id == id).map (renewed news)).or
        (news.find? fun o => o.id == id) := by
  have hsame : (fun o : Overload => o.id == id) ∘ renewed news = fun o => o.id == id := by
    funext o
    simp
  unfold layered
  rw [List.find?_append, List.find?_map, hsame]
  cases hfind : os.find? fun o => o.id == id with
  | some e => rfl
  | none =>
    have hnew : id ∉ os.map Overload.id := find?_eq_none_iff.mp hfind
    -- nothing with the id is left out
    have hkept : ∀ o : Overload,
        decide (decide (o.id ∉ os.map Overload.id) = true ∧ (o.id == id) = true) =
          (o.id == id) := by
      intro o
      by_cases hid : o.id = id <;> simp [hid, hnew]
    rw [List.find?_filter, funext hkept]

/-- Renewing twice is renewing once, by what the second lays over the first. -/
theorem renewed_renewed (bs cs : List Overload) (e : Overload) :
    renewed cs (renewed bs e) = renewed (layered bs cs) e := by
  have hcs : ∀ o : Overload, o.id = e.id → renewed cs o =
      ((cs.find? fun x => x.id == e.id).filter hasImplementation).getD o := by
    intro o hid
    rw [renewed, hid]
  rw [hcs _ (renewed_id bs e), renewed, renewed, find?_layered]
  cases hb : bs.find? fun o => o.id == e.id with
  | none => rfl
  | some o =>
    rw [Option.map_some, Option.some_or, hcs o (id_of_find? hb)]
    cases hc : (cs.find? fun x => x.id == e.id).filter hasImplementation with
    | none => rfl
    | some p =>
      have himpl : p.hasImplementation = true := (Option.filter_eq_some_iff.mp hc).2
      simp [Option.filter, himpl]

/-- **Laying overloads over others is associative**, whatever they say. -/
theorem layered_assoc (as bs cs : List Overload) :
    layered (layered as bs) cs = layered as (layered bs cs) := by
  have hfirst : (as.map (renewed bs)).map (renewed cs) = as.map (renewed (layered bs cs)) := by
    rw [List.map_map]
    exact List.map_congr_left fun e _ => renewed_renewed bs cs e
  have hsecond : (bs.filter fun o => o.id ∉ as.map Overload.id).map (renewed cs) =
      (bs.map (renewed cs)).filter fun o => o.id ∉ as.map Overload.id := by
    rw [List.filter_map]
    congr 2
    funext o
    simp
  have hthird : (cs.filter fun o => o.id ∉ (layered as bs).map Overload.id) =
      (cs.filter fun o => o.id ∉ bs.map Overload.id).filter
        fun o => o.id ∉ as.map Overload.id := by
    rw [List.filter_filter]
    refine List.filter_congr fun o _ => ?_
    rw [← Bool.decide_and, decide_eq_decide, mem_ids_layered, not_or]
  calc layered (layered as bs) cs
      = ((as.map (renewed bs)).map (renewed cs) ++
          (bs.filter fun o => o.id ∉ as.map Overload.id).map (renewed cs)) ++
          cs.filter fun o => o.id ∉ (layered as bs).map Overload.id := by
        rw [← List.map_append]
        rfl
    _ = as.map (renewed (layered bs cs)) ++
          (layered bs cs).filter fun o => o.id ∉ as.map Overload.id := by
        rw [hfirst, hsecond, hthird, List.append_assoc, ← List.filter_append]
        rfl

theorem layered_nil (os : List Overload) : layered os [] = os := by
  unfold layered
  rw [List.filter_nil, List.append_nil,
    List.map_congr_left fun e _ => renewed_eq_self (List.not_mem_nil (a := e.id))]
  exact List.map_id _

/-- Over a single overload of another id nothing is changed. -/
theorem layered_singleton (h : o.id ∉ news.map Overload.id) :
    layered [o] news = o :: news := by
  have hkept : (news.filter fun x => x.id ∉ [o].map Overload.id) = news := by
    refine List.filter_eq_self.mpr fun x hx => ?_
    rw [decide_eq_true_iff, List.map_cons, List.map_nil, List.mem_singleton]
    exact fun hid => h (hid ▸ List.mem_map_of_mem hx)
  unfold layered
  rw [hkept, List.map_cons, renewed_eq_self h]
  rfl

theorem layered_cons_of_eq (hid : e.id = o.id) (h : e.id ∉ os.map Overload.id) :
    layered (e :: os) [o] = (if o.hasImplementation then o else e) :: os := by
  have hrest : ∀ x ∈ os, renewed [o] x = x := by
    intro x hx
    refine renewed_eq_self ?_
    rw [List.map_cons, List.map_nil, List.mem_singleton, ← hid]
    exact fun hxe => h (hxe ▸ List.mem_map_of_mem hx)
  unfold layered
  rw [List.map_cons, List.map_congr_left hrest, List.map_id']
  cases himpl : o.hasImplementation <;> simp [renewed, Option.filter, hid, himpl]

theorem layered_cons_of_ne (hid : e.id ≠ o.id) :
    layered (e :: os) [o] = e :: layered os [o] := by
  have hhead : renewed [o] e = e := renewed_eq_self (by simpa using hid)
  have hnew : ∀ x ∈ [o], decide (x.id ∉ (e :: os).map Overload.id) =
      decide (x.id ∉ os.map Overload.id) := by
    rw [List.forall_mem_singleton, decide_eq_decide, List.map_cons, List.mem_cons, not_or]
    exact and_iff_right hid.symm
  unfold layered
  rw [List.map_cons, hhead, List.cons_append, List.filter_congr hnew]

/-! ## Compatible lists -/

section Compatible

variable (hcompat : ∀ e ∈ os, ∀ o ∈ news, e.Compatible o)

include hcompat

/-- An overload that is renewed says what it said before. -/
theorem renewed_restates (he : e ∈ os) : (renewed news e).Restates e := by
  rcases renewed_cases news e with h | ⟨hmem, hid⟩
  · rw [h]
    exact Restates.refl e
  · exact (hcompat e he _ hmem).restates hid.symm

variable (hos : ∀ o ∈ os, o.Structural) (hnews : ∀ o ∈ news, o.Structural)

omit hcompat in
include hos hnews in
theorem renewed_structural (he : e ∈ os) : (renewed news e).Structural := by
  rcases renewed_cases news e with h | ⟨hmem, -⟩
  · rw [h]
    exact hos e he
  · exact hnews _ hmem

include hos hnews

/-- What is compatible with two layers is compatible with one over the other. -/
theorem forall_layered_compatible (hx : x.Structural) : (∀ y ∈ layered os news, y.Compatible x) ↔
    (∀ e ∈ os, e.Compatible x) ∧ ∀ o ∈ news, o.Compatible x := by
  have hrenewed : ∀ e ∈ os, ((renewed news e).Compatible x ↔ e.Compatible x) := fun e he =>
    Compatible.congr (renewed_restates hcompat he) (renewed_structural hos hnews he) (hos e he) hx
  unfold layered
  rw [List.forall_mem_append, List.forall_mem_map]
  refine ⟨fun ⟨hfirst, hsecond⟩ => ?_, fun ⟨hfirst, hsecond⟩ => ⟨?_, ?_⟩⟩
  · have hold : ∀ e ∈ os, e.Compatible x := fun e he => (hrenewed e he).mp (hfirst e he)
    refine ⟨hold, fun o ho => ?_⟩
    by_cases hid : o.id ∈ os.map Overload.id
    · -- it says what an overload of the first layer says
      obtain ⟨e, he, heo⟩ := List.mem_map.mp hid
      exact (Compatible.congr ((hcompat e he o ho).restates heo) (hnews o ho) (hos e he) hx).mpr
        (hold e he)
    · exact hsecond o (List.mem_filter.mpr ⟨ho, decide_eq_true hid⟩)
  · exact fun e he => (hrenewed e he).mpr (hfirst e he)
  · exact fun o ho => hsecond o (List.mem_of_mem_filter ho)

end Compatible

end Overload

namespace Implementation

theorem same_iff {i j : Implementation} :
    i.same j = true ↔ i.operation.form = j.operation.form ∧ i.identity = j.identity := by
  unfold same
  rw [Bool.and_eq_true, beq_iff_eq, beq_iff_eq]

theorem same_symm {i j : Implementation} (h : i.same j = true) : j.same i = true := by
  rw [same_iff] at h ⊢
  exact ⟨h.1.symm, h.2.symm⟩

theorem same_trans {i j k : Implementation} (hij : i.same j = true) (hjk : j.same k = true) :
    i.same k = true := by
  rw [same_iff] at hij hjk ⊢
  exact ⟨hij.1.trans hjk.1, hij.2.trans hjk.2⟩

end Implementation

namespace FunctionDecl

open Overload

/-- The overloads of a function: without special rules of acceptance, with different ids, and none
overlapping another. -/
structure Settled (os : List Overload) : Prop where
  /-- No type of an argument has a special rule of acceptance. -/
  structural : ∀ o ∈ os, o.Structural
  /-- No id stands twice, and no two overloads overlap. -/
  apart : Apart (fun a b => a.overlaps b = false) os

namespace Settled

variable {e o : Overload} {os news : List Overload}

theorem singleton (ho : o.Structural) : Settled [o] :=
  ⟨List.forall_mem_singleton.mpr ho, List.pairwise_singleton _ _⟩

theorem head (h : Settled (e :: os)) : ∀ x ∈ os, e.id ≠ x.id ∧ e.overlaps x = false :=
  (List.pairwise_cons.mp h.apart).1

theorem tail (h : Settled (e :: os)) : Settled os :=
  ⟨fun x hx => h.structural x (List.mem_cons_of_mem e hx), (List.pairwise_cons.mp h.apart).2⟩

theorem notMem_ids (h : Settled (e :: os)) : e.id ∉ os.map Overload.id := by
  rw [List.mem_map]
  rintro ⟨x, hx, hid⟩
  exact (h.head x hx).1 hid.symm

/-- Compatible overloads laid over one another are again overloads of a function. -/
theorem layered (hos : Settled os) (hnews : Settled news)
    (hcompat : ∀ e ∈ os, ∀ o ∈ news, e.Compatible o) : Settled (layered os news) where
  structural := by
    unfold Overload.layered
    rw [List.forall_mem_append, List.forall_mem_map]
    exact ⟨fun e he => renewed_structural hos.structural hnews.structural he,
      fun o ho => hnews.structural o (List.mem_of_mem_filter ho)⟩
  apart := by
    have hrenewed : ∀ e ∈ os, ∀ x : Overload, x.Structural →
        (renewed news e).overlaps x = e.overlaps x := fun e he x hx =>
      (renewed_restates hcompat he).overlaps_eq
        (renewed_structural hos.structural hnews.structural he) (hos.structural e he) hx
    refine List.pairwise_append.mpr ⟨?_, hnews.apart.filter _, ?_⟩
    · refine List.pairwise_map.mpr (hos.apart.imp_of_mem fun {a b} ha hb hab => ?_)
      have hover : (renewed news a).overlaps (renewed news b) = a.overlaps b := by
        rw [hrenewed a ha _ (renewed_structural hos.structural hnews.structural hb),
          overlaps_comm, hrenewed b hb a (hos.structural a ha), overlaps_comm]
      rw [renewed_id, renewed_id]
      exact ⟨hab.1, hover.trans hab.2⟩
    · rw [List.forall_mem_map]
      intro e he o ho
      obtain ⟨ho, hid⟩ := List.mem_filter.mp ho
      have hne : e.id ≠ o.id := fun heq =>
        of_decide_eq_true hid (heq ▸ List.mem_map_of_mem he)
      rw [renewed_id]
      exact ⟨hne, (hrenewed e he o (hnews.structural o ho)).trans
        ((hcompat e he o ho).separate hne)⟩

end Settled

/-! ## When overloads can be added -/

theorem eq_ok_of_toOption_eq_some {ε α : Type} {x : Except ε α} {a : α}
    (h : x.toOption = some a) : x = .ok a := by
  cases x with
  | error err => exact absurd h (by simp [Except.toOption])
  | ok b => rw [Option.some.inj h]

/-- **An overload can be added if it is compatible with all that are there.**  That no more than
those up to the one with its id are compared makes no difference. -/
theorem place_eq_ok_iff {function : String} {o : Overload} (ho : o.Structural) :
    ∀ {os os' : List Overload}, Settled os →
      (place function o os = .ok os' ↔ (∀ e ∈ os, e.Compatible o) ∧ os' = layered os [o])
  | [], os', _ => by
    rw [place]
    simp [layered, eq_comm]
  | e :: rest, os', hos => by
    have he : e.Structural := hos.structural e List.mem_cons_self
    rw [List.forall_mem_cons, place]
    by_cases hid : e.id = o.id
    · have hothers : o.Restates e → ∀ x ∈ rest, x.Compatible o := by
        intro hrestates x hx
        obtain ⟨hne, hsep⟩ := hos.head x hx
        refine Compatible.symm ((Compatible.of_ne (hid ▸ hne)).mpr ?_)
        rw [hrestates.overlaps_eq ho he (hos.tail.structural x hx)]
        exact hsep
      rw [if_pos hid, Compatible.of_eq hid, layered_cons_of_eq hid hos.notMem_ids]
      by_cases hsame : e.sameSignature o = true ∧ e.nonStrict = o.nonStrict
      · have hrestates : o.Restates e := ⟨hsame.1, hsame.2⟩
        rw [if_pos (by rw [hsame.1, hsame.2, beq_self_eq_true, Bool.and_self]), Except.ok.injEq]
        exact ⟨fun h => ⟨⟨hrestates, hothers hrestates⟩, h.symm⟩, fun h => h.2.symm⟩
      · rw [if_neg (by rwa [Bool.and_eq_true, beq_iff_eq])]
        exact ⟨fun h => absurd h (by simp),
          fun h => absurd ⟨h.1.1.signature, h.1.1.nonStrict⟩ hsame⟩
    · rw [if_neg hid, Compatible.of_ne hid, layered_cons_of_ne hid]
      cases hover : e.overlaps o with
      | true => simp
      | false =>
        rw [if_neg Bool.false_ne_true]
        constructor
        · intro h
          cases hrest : place function o rest with
          | error err =>
            rw [hrest] at h
            exact absurd h (by simp [Except.map])
          | ok rest' =>
            rw [hrest] at h
            obtain ⟨hcompat, rfl⟩ := (place_eq_ok_iff ho hos.tail).mp hrest
            exact ⟨⟨rfl, hcompat⟩, (Except.ok.inj h).symm⟩
        · rintro ⟨⟨-, hcompat⟩, rfl⟩
          rw [(place_eq_ok_iff ho hos.tail).mpr ⟨hcompat, rfl⟩]
          rfl

theorem addOverload_eq_ok_iff {f g : FunctionDecl} {o : Overload} (hf : Settled f.overloads)
    (ho : o.Structural) : f.addOverload o = .ok g ↔
      (∀ e ∈ f.overloads, e.Compatible o) ∧
        g = { f with overloads := layered f.overloads [o] } := by
  unfold addOverload
  constructor
  · intro h
    cases hplace : place f.name o f.overloads with
    | error err =>
      rw [hplace] at h
      exact absurd h (by simp [Except.map])
    | ok os =>
      rw [hplace] at h
      obtain ⟨hcompat, rfl⟩ := (place_eq_ok_iff ho hf).mp hplace
      exact ⟨hcompat, (Except.ok.inj h).symm⟩
  · rintro ⟨hcompat, rfl⟩
    rw [(place_eq_ok_iff ho hf).mpr ⟨hcompat, rfl⟩]
    rfl

/-- **Overloads can be added if each is compatible with all that were there at the start.** -/
theorem addOverloads_eq_ok_iff {g : FunctionDecl} {news : List Overload} :
    ∀ {f : FunctionDecl}, Settled f.overloads → Settled news →
      (f.addOverloads news = .ok g ↔ (∀ e ∈ f.overloads, ∀ o ∈ news, e.Compatible o) ∧
        g = { f with overloads := layered f.overloads news }) := by
  induction news with
  | nil =>
    intro f _ _
    rw [layered_nil, addOverloads, List.foldlM_nil]
    simp [pure, Except.pure, eq_comm]
  | cons o news ih =>
    intro f hf hnews
    have ho : o.Structural := hnews.structural o List.mem_cons_self
    -- what is added first does not get into the way of the rest
    have hstep : (∀ e ∈ f.overloads, e.Compatible o) → ∀ x ∈ news,
        ((∀ e ∈ layered f.overloads [o], e.Compatible x) ↔
          ∀ e ∈ f.overloads, e.Compatible x) := by
      intro hcompat x hx
      rw [forall_layered_compatible (fun e he => List.forall_mem_singleton.mpr (hcompat e he))
        hf.structural (Settled.singleton ho).structural (hnews.tail.structural x hx),
        List.forall_mem_singleton]
      obtain ⟨hne, hsep⟩ := hnews.head x hx
      exact and_iff_left ((Compatible.of_ne hne).mpr hsep)
    have hlayers : layered (layered f.overloads [o]) news = layered f.overloads (o :: news) := by
      rw [layered_assoc, layered_singleton hnews.notMem_ids]
    have hsettled : (∀ e ∈ f.overloads, e.Compatible o) → Settled (layered f.overloads [o]) :=
      fun hcompat => hf.layered (Settled.singleton ho)
        fun e he => List.forall_mem_singleton.mpr (hcompat e he)
    rw [addOverloads_cons_iff]
    constructor
    · rintro ⟨k, hfirst, hrest⟩
      obtain ⟨hcompat, rfl⟩ := (addOverload_eq_ok_iff hf ho).mp hfirst
      obtain ⟨hothers, rfl⟩ := (ih (hsettled hcompat) hnews.tail).mp hrest
      refine ⟨fun e he => List.forall_mem_cons.mpr ⟨hcompat e he, fun x hx => ?_⟩, ?_⟩
      · exact (hstep hcompat x hx).mp (fun y hy => hothers y hy x hx) e he
      · rw [hlayers]
    · rintro ⟨hcompat, rfl⟩
      have hfirst : ∀ e ∈ f.overloads, e.Compatible o :=
        fun e he => hcompat e he o List.mem_cons_self
      refine ⟨_, (addOverload_eq_ok_iff hf ho).mpr ⟨hfirst, rfl⟩,
        (ih (hsettled hfirst) hnews.tail).mpr ⟨fun y hy x hx => ?_, ?_⟩⟩
      · exact (hstep hfirst x hx).mpr
          (fun e he => hcompat e he x (List.mem_cons_of_mem o hx)) y hy
      · rw [hlayers]

/-! ## When declarations can be merged -/

/-- Two declarations of one function do not contradict one another. -/
structure Agrees (f g : FunctionDecl) : Prop where
  /-- They have the same name. -/
  name : f.name = g.name
  /-- Their overloads can be overloads of one function. -/
  overloads : ∀ e ∈ f.overloads, ∀ o ∈ g.overloads, e.Compatible o
  /-- If both have a shared implementation, it is the same. -/
  singleton : ∀ i ∈ f.singleton, ∀ j ∈ g.singleton, i.same j = true

/-- One declaration laid over another: what the later one says counts where it says something, and
implementations run without a look at types only if both say so. -/
def joined (f g : FunctionDecl) : FunctionDecl where
  name := f.name
  overloads := layered f.overloads g.overloads
  singleton := g.singleton.or f.singleton
  guardsDisabled := f.guardsDisabled && g.guardsDisabled
  state := if g.state = .unspecified then f.state else g.state

theorem mergeSingleton_eq_ok_iff {function : String} {own other merged : Option Implementation} :
    mergeSingleton function own other = .ok merged ↔
      (∀ i ∈ own, ∀ j ∈ other, i.same j = true) ∧ merged = other.or own := by
  rw [eq_comm (a := merged)]
  cases own with
  | none => cases other <;> simp [mergeSingleton]
  | some i =>
    cases other with
    | none => simp [mergeSingleton]
    | some j => cases hsame : i.same j <;> simp [mergeSingleton, hsame]

/-- **Declarations can be merged if they agree, and merging lays one over the other.** -/
theorem merge_eq_ok_iff {f g h : FunctionDecl} (hf : Settled f.overloads)
    (hg : Settled g.overloads) : f.merge g = .ok h ↔ f.Agrees g ∧ h = f.joined g := by
  unfold merge
  by_cases hname : f.name = g.name
  · rw [if_pos hname, bind_eq_ok_iff]
    constructor
    · rintro ⟨k, hadd, hrest⟩
      obtain ⟨i, hsingle, hresult⟩ := bind_eq_ok_iff.mp hrest
      obtain ⟨hcompat, rfl⟩ := (addOverloads_eq_ok_iff hf hg).mp hadd
      obtain ⟨hsame, rfl⟩ := mergeSingleton_eq_ok_iff.mp hsingle
      exact ⟨⟨hname, hcompat, hsame⟩, (Except.ok.inj hresult).symm⟩
    · rintro ⟨hagrees, rfl⟩
      exact ⟨_, (addOverloads_eq_ok_iff hf hg).mpr ⟨hagrees.overloads, rfl⟩,
        bind_eq_ok_iff.mpr ⟨_, mergeSingleton_eq_ok_iff.mpr ⟨hagrees.singleton, rfl⟩, rfl⟩⟩
  · rw [if_neg hname]
    exact ⟨fun h => absurd h (by simp), fun h => absurd h.1.name hname⟩

theorem joined_assoc (f g h : FunctionDecl) : (f.joined g).joined h = f.joined (g.joined h) := by
  unfold joined
  simp only [mk.injEq, layered_assoc, Option.or_assoc, Bool.and_assoc, true_and]
  cases h.state <;> simp

theorem ids_joined (f g : FunctionDecl) :
    (f.joined g).ids = f.ids ++ g.ids.filter fun id => id ∉ f.ids :=
  ids_layered f.overloads g.overloads

theorem find?_joined (f g : FunctionDecl) (id : String) : (f.joined g).find? id =
    ((f.find? id).map (renewed g.overloads)).or (g.find? id) :=
  find?_layered f.overloads g.overloads id

/-- Under an id stands the later version exactly when it has an implementation or there is no
earlier one. -/
theorem find?_joined_eq_ite (f g : FunctionDecl) (id : String) : (f.joined g).find? id =
    if (g.find? id).any (fun o => o.hasImplementation || id ∉ f.ids) then g.find? id
    else f.find? id := by
  rw [find?_joined]
  cases hearlier : f.find? id with
  | none =>
    have hnew : id ∉ f.ids := find?_eq_none_iff.mp hearlier
    cases g.find? id <;> simp [hnew]
  | some e =>
    have hid : e.id = id := id_of_find? hearlier
    have hold : id ∈ f.ids := hid ▸ List.mem_map_of_mem (List.mem_of_find?_eq_some hearlier)
    have hrenewed : renewed g.overloads e = ((g.find? id).filter hasImplementation).getD e := by
      rw [renewed, hid]
      rfl
    rw [Option.map_some, Option.some_or, hrenewed]
    cases g.find? id with
    | none => rfl
    | some o => cases himpl : o.hasImplementation <;> simp [Option.filter, hold, himpl]

/-- **Merging loses nothing**: what either declaration says about an id is said by the overload
that stands there in the end. -/
theorem exists_restates_of_agrees {f g : FunctionDecl} (hf : Settled f.overloads)
    (hg : Settled g.overloads) (hfg : f.Agrees g) {o : Overload}
    (ho : o ∈ f.overloads ∨ o ∈ g.overloads) :
    ∃ o', (f.joined g).find? o.id = some o' ∧ o'.Restates o := by
  rw [find?_joined]
  rcases ho with ho | ho
  · rw [find?_id_of_apart hf.apart ho]
    exact ⟨_, rfl, renewed_restates hfg.overloads ho⟩
  · rw [find?_id_of_apart hg.apart ho]
    cases hearlier : f.find? o.id with
    | none => exact ⟨o, rfl, Restates.refl o⟩
    | some e =>
      have he : e ∈ f.overloads := List.mem_of_find?_eq_some hearlier
      have hsame : o.Restates e := (hfg.overloads e he o ho).restates (id_of_find? hearlier)
      exact ⟨_, rfl, (renewed_restates hfg.overloads he).trans hsame.symm⟩

/-! ## Merging three declarations -/

/-- Of two shared implementations that are the same it does not matter which one counts. -/
theorem forall_or_same {own other : Option Implementation} {k : Implementation}
    (h : ∀ i ∈ own, ∀ j ∈ other, i.same j = true) : (∀ i ∈ other.or own, i.same k = true) ↔
      (∀ i ∈ own, i.same k = true) ∧ ∀ j ∈ other, j.same k = true := by
  cases other with
  | none => simp
  | some j =>
    simp only [Option.some_or, Option.mem_some_iff, forall_eq'] at h ⊢
    exact ⟨fun hjk => ⟨fun i hi => Implementation.same_trans (h i hi) hjk, hjk⟩, And.right⟩

theorem Agrees.symm {f g : FunctionDecl} (h : f.Agrees g) : g.Agrees f where
  name := h.name.symm
  overloads o ho e he := (h.overloads e he o ho).symm
  singleton j hj i hi := Implementation.same_symm (h.singleton i hi j hj)

section Three

variable {f g h m : FunctionDecl} (hf : Settled f.overloads) (hg : Settled g.overloads)
  (hh : Settled h.overloads)

include hf hg in
theorem Settled.joined (hfg : f.Agrees g) : Settled (f.joined g).overloads :=
  hf.layered hg hfg.overloads

include hf hg hh

/-- **What agrees with two declarations agrees with one laid over the other.** -/
theorem agrees_joined_left (hfg : f.Agrees g) :
    (f.joined g).Agrees h ↔ f.Agrees h ∧ g.Agrees h := by
  have hoverloads : ∀ x ∈ h.overloads, ((∀ y ∈ (f.joined g).overloads, y.Compatible x) ↔
      (∀ e ∈ f.overloads, e.Compatible x) ∧ ∀ o ∈ g.overloads, o.Compatible x) := fun x hx =>
    forall_layered_compatible hfg.overloads hf.structural hg.structural (hh.structural x hx)
  constructor
  · intro hagrees
    have hcompat := fun x hx => (hoverloads x hx).mp fun y hy => hagrees.overloads y hy x hx
    have hsingle := fun k hk => (forall_or_same (k := k) hfg.singleton).mp
      fun i hi => hagrees.singleton i hi k hk
    exact ⟨⟨hagrees.name, fun e he x hx => (hcompat x hx).1 e he,
        fun i hi k hk => (hsingle k hk).1 i hi⟩,
      ⟨hfg.name.symm.trans hagrees.name, fun o ho x hx => (hcompat x hx).2 o ho,
        fun j hj k hk => (hsingle k hk).2 j hj⟩⟩
  · rintro ⟨hfh, hgh⟩
    refine ⟨hfh.name, fun y hy x hx => ?_, fun i hi k hk => ?_⟩
    · exact (hoverloads x hx).mpr
        ⟨fun e he => hfh.overloads e he x hx, fun o ho => hgh.overloads o ho x hx⟩ y hy
    · exact (forall_or_same hfg.singleton).mpr
        ⟨fun j hj => hfh.singleton j hj k hk, fun j hj => hgh.singleton j hj k hk⟩ i hi

theorem agrees_joined_right (hgh : g.Agrees h) :
    f.Agrees (g.joined h) ↔ f.Agrees g ∧ f.Agrees h := by
  have hleft := agrees_joined_left hg hh hf hgh
  constructor
  · intro hagrees
    obtain ⟨hgf, hhf⟩ := hleft.mp hagrees.symm
    exact ⟨hgf.symm, hhf.symm⟩
  · rintro ⟨hfg, hfh⟩
    exact (hleft.mpr ⟨hfg.symm, hfh.symm⟩).symm

/-- Merging from the left asks that the three declarations agree. -/
theorem merge_merge_left : (f.merge g >>= fun fg => fg.merge h) = .ok m ↔
    (f.Agrees g ∧ f.Agrees h ∧ g.Agrees h) ∧ m = (f.joined g).joined h := by
  rw [bind_eq_ok_iff]
  constructor
  · rintro ⟨k, hfirst, hsecond⟩
    obtain ⟨hfg, rfl⟩ := (merge_eq_ok_iff hf hg).mp hfirst
    obtain ⟨hrest, rfl⟩ := (merge_eq_ok_iff (hf.joined hg hfg) hh).mp hsecond
    exact ⟨⟨hfg, (agrees_joined_left hf hg hh hfg).mp hrest⟩, rfl⟩
  · rintro ⟨⟨hfg, hrest⟩, rfl⟩
    exact ⟨_, (merge_eq_ok_iff hf hg).mpr ⟨hfg, rfl⟩, (merge_eq_ok_iff (hf.joined hg hfg) hh).mpr
      ⟨(agrees_joined_left hf hg hh hfg).mpr hrest, rfl⟩⟩

/-- Merging from the right asks that the three declarations agree. -/
theorem merge_merge_right : (g.merge h >>= fun gh => f.merge gh) = .ok m ↔
    (f.Agrees g ∧ f.Agrees h ∧ g.Agrees h) ∧ m = f.joined (g.joined h) := by
  rw [bind_eq_ok_iff]
  constructor
  · rintro ⟨k, hfirst, hsecond⟩
    obtain ⟨hgh, rfl⟩ := (merge_eq_ok_iff hg hh).mp hfirst
    obtain ⟨hrest, rfl⟩ := (merge_eq_ok_iff hf (hg.joined hh hgh)).mp hsecond
    obtain ⟨hfg, hfh⟩ := (agrees_joined_right hf hg hh hgh).mp hrest
    exact ⟨⟨hfg, hfh, hgh⟩, rfl⟩
  · rintro ⟨⟨hfg, hfh, hgh⟩, rfl⟩
    exact ⟨_, (merge_eq_ok_iff hg hh).mpr ⟨hgh, rfl⟩, (merge_eq_ok_iff hf (hg.joined hh hgh)).mpr
      ⟨(agrees_joined_right hf hg hh hgh).mpr ⟨hfg, hfh⟩, rfl⟩⟩

end Three

/-- The overloads were put together by adding overloads, all of them without special rules of
acceptance. -/
def Constructed (f : FunctionDecl) : Prop :=
  ∃ c : Construction, (∀ o ∈ c.declared, o.Structural) ∧ c.build.overloads = f.overloads

theorem Constructed.settled {f : FunctionDecl} (h : f.Constructed) : Settled f.overloads := by
  obtain ⟨c, hc, hbuild⟩ := h
  rw [← hbuild]
  refine ⟨fun o ho => hc o (Construction.mem_declared ho), ?_⟩
  refine Construction.build_apart (fun a b hab => overlaps_comm b a ▸ hab) (fun _ _ _ _ hab => hab)
    (fun e o he ho hrep _ x hx hex => ?_) hc c.redeclares_trivially
  have hrestates : o.Restates e := ⟨hrep.signature, hrep.nonStrict⟩
  exact (hrestates.overlaps_eq ho he hx).trans hex

end FunctionDecl

/-- **Merging lays declarations over one another, without loss and associatively.**  Two
declarations whose overloads were put together without special rules of acceptance can be merged if
and only if they agree.  The merged function lists the ids of the first, then the further ids of
the second.  Under each stands the version of the second if it has an implementation or the first
has none, and otherwise that of the first, and it says what both said.  Of three declarations the
first two may be merged before the third is added, or the last two before they are added to the
first: either both succeed, with the same function, or none does. -/
theorem merge_layers (a b c : FunctionDecl) (ha : a.Constructed) (hb : b.Constructed)
    (hc : c.Constructed) :
    ((∃ m, a.merge b = .ok m) ↔ a.Agrees b) ∧
    (∀ m, a.merge b = .ok m →
      m.ids = a.ids ++ b.ids.filter (fun id => id ∉ a.ids) ∧
      (∀ id, m.find? id =
        if (b.find? id).any (fun o => o.hasImplementation || id ∉ a.ids) then b.find? id
        else a.find? id) ∧
      ∀ o, o ∈ a.overloads ∨ o ∈ b.overloads →
        ∃ o', m.find? o.id = some o' ∧ o'.Restates o) ∧
    ∀ m, (a.merge b >>= fun ab => ab.merge c) = .ok m ↔
      (b.merge c >>= fun bc => a.merge bc) = .ok m := by
  have hmerge := fun m => FunctionDecl.merge_eq_ok_iff (h := m) ha.settled hb.settled
  refine ⟨⟨?_, fun hagrees => ⟨_, (hmerge _).mpr ⟨hagrees, rfl⟩⟩⟩, fun m hm => ?_, fun m => ?_⟩
  · rintro ⟨m, hm⟩
    exact ((hmerge m).mp hm).1
  · obtain ⟨hagrees, rfl⟩ := (hmerge m).mp hm
    exact ⟨a.ids_joined b, a.find?_joined_eq_ite b, fun o ho =>
      FunctionDecl.exists_restates_of_agrees ha.settled hb.settled hagrees ho⟩
  · rw [FunctionDecl.merge_merge_left ha.settled hb.settled hc.settled,
      FunctionDecl.merge_merge_right ha.settled hb.settled hc.settled, FunctionDecl.joined_assoc]

/-- The length of a text and of a list, not implemented yet. -/
def lengthsDrafted : Construction :=
  .add (.add (.new "length") (.global "length_string" [.string] .int))
    (.global "length_list" [.list (.param "T")] .int)

/-- The length of a text, implemented. -/
def lengthsBound : Construction :=
  .add (.new "length")
    ((Overload.global "length_string" [.string] .int).implementedBy ⟨"chars", .unary some⟩)

/-- The length of bytes, and that of a text once more. -/
def lengthsExtended : Construction :=
  .add (.add (.new "length") (.global "length_bytes" [.bytes] .int))
    (.global "length_string" [.string] .int)

/-- Three declarations with an implementation in the middle one give the same function from either
side. -/
theorem merge_layers_lengths :
    lengthsDrafted.build.Constructed ∧ lengthsBound.build.Constructed ∧
    lengthsExtended.build.Constructed ∧
    ∃ m, (lengthsDrafted.build.merge lengthsBound.build >>=
        fun ab => ab.merge lengthsExtended.build) = .ok m ∧
      (lengthsBound.build.merge lengthsExtended.build >>=
        fun bc => lengthsDrafted.build.merge bc) = .ok m ∧
      m.ids = ["length_string", "length_list", "length_bytes"] ∧
      (m.find? "length_string").any Overload.hasImplementation = true := by
  have hdrafted : lengthsDrafted.build.Constructed := ⟨_, by decide +kernel, rfl⟩
  have hbound : lengthsBound.build.Constructed := ⟨_, by decide +kernel, rfl⟩
  have hextended : lengthsExtended.build.Constructed := ⟨_, by decide +kernel, rfl⟩
  have hresult : ((lengthsDrafted.build.merge lengthsBound.build >>=
      fun ab => ab.merge lengthsExtended.build).toOption.map fun m =>
        (m.ids, (m.find? "length_string").any Overload.hasImplementation)) =
      some (["length_string", "length_list", "length_bytes"], true) := by decide +kernel
  obtain ⟨m, hm, hids⟩ := Option.map_eq_some_iff.mp hresult
  obtain ⟨hlist, himpl⟩ := Prod.mk.injEq .. ▸ hids
  have hleft := FunctionDecl.eq_ok_of_toOption_eq_some hm
  exact ⟨hdrafted, hbound, hextended, m, hleft,
    ((merge_layers _ _ _ hdrafted hbound hextended).2.2 m).mp hleft, hlist, himpl⟩

end CelTyping
