import CelTyping.Proofs.Ty.Acceptance
import CelTyping.Proofs.Ty.Grammar
import Mathlib.Tactic.Choose

/-!
# Reading the text of a type

The text of a type that was read from a text is itself the text of a type, which has the same shape
and the same text.  It need not be the same type, nor the same text that was read: the text of a
type leaves out the white space, gives `optional` its longer name and well-known messages the name
of what they stand for, and it shows the exception for `null` only where there are no parameters.

The exception for `null` is what stands in the way of an induction over the way a text is spelled.
`wrapper(t)` changes the rule of acceptance of `t`, and with it the text; about that other text a
hypothesis on the text of `t` says nothing.  So the induction is on `Legible`, which asks of a type
that its text can be read whichever of the two rules it has.  Then `wrapper` changes nothing, and
what is left is to look at the names:

* a name from the list of simple types, or one that stands for a well-known message, is shown by a
  name that is read as a type of the same shape (`readable_simpleTypes`, `readable_wellKnownTypes`);
* any other name is shown as it was read;
* a node with parameters is shown by a name that takes as many parameters (`readable_of_params`).
-/

namespace CelTyping

/-- The short names of the built-in types that are named like messages. -/
def Kind.shortName? : Kind → Option String
  | .null => some "null"
  | .timestamp => some "timestamp"
  | .duration => some "duration"
  | .any => some "any"
  | _ => none

namespace Ty

open Parsing

/-! ## Texts -/

theorem displays_eq_map (ts : List Ty) : displays ts = ts.map display := by
  induction ts with
  | nil => rfl
  | cons t rest ih => rw [displays, List.map_cons, ih]

theorem display_of_shortName {t : Ty} {s : String} (h : t.kind.shortName? = some s) :
    t.display = s := by
  obtain ⟨kind, name, params, traits, acceptance⟩ := t
  cases kind <;> simp_all [Kind.shortName?, display]

theorem display_of_params_nil {t : Ty} (h : t.kind.shortName? = none) (hparams : t.params = []) :
    t.display = t.declaredName := by
  obtain ⟨kind, name, params, traits, acceptance⟩ := t
  obtain rfl : params = [] := hparams
  cases kind <;> simp_all [Kind.shortName?, display]

theorem display_of_params {t : Ty} (h : t.kind.shortName? = none) (hparams : t.params ≠ []) :
    t.display = applied t.name (t.params.map display) := by
  obtain ⟨kind, name, params, traits, acceptance⟩ := t
  obtain ⟨p, ps, rfl⟩ := List.exists_cons_of_ne_nil hparams
  cases kind <;> simp_all [Kind.shortName?, display, displays_eq_map]

/-- The type with another rule of acceptance at its root. -/
def withAcceptance (t : Ty) (acceptance : Acceptance) : Ty := { t with acceptance := acceptance }

theorem withAcceptance_self (t : Ty) : t.withAcceptance t.acceptance = t := by
  cases t
  rfl

theorem shape_withAcceptance (t : Ty) (a : Acceptance) : (t.withAcceptance a).shape = t.shape := by
  rw [shape_eq, shape_eq t]
  rfl

/-- A type with parameters as it is shown among the parameters of another, standing for a type. -/
def shownAs (stands : Ty → Ty) (p : Ty) : Argument := ⟨stands p, ' ' :: p.display.toList, []⟩

/-- The text of a type with parameters is laid out by the rule. -/
theorem toList_applied (name : String) (stands : Ty → Ty) (p : Ty) (ps : List Ty) :
    (applied name ((p :: ps).map display)).toList =
      name.toList ++ '(' :: (p.display.toList ++ further (ps.map (shownAs stands))) := by
  have hmore : (", ".intercalate (p.display :: ps.map display) ++ ")").toList =
      p.display.toList ++ further (ps.map (shownAs stands)) := by
    induction ps generalizing p with
    | nil => simp [further]
    | cons q ps ih =>
      have hrest := ih q
      rw [String.toList_append] at hrest
      simp only [List.map_cons, String.intercalate_cons_cons, String.toList_append, hrest,
        List.append_assoc, further, shownAs]
      rfl
  simp only [List.map_cons, applied, String.append_assoc]
  rw [String.toList_append, String.toList_append, hmore]
  rfl

theorem declaredName_of_structural {t : Ty} (h : t.acceptance = .structural) :
    t.declaredName = t.name := by
  have hordinary : t.acceptance.isOrdinary = true := by rw [h]; rfl
  unfold declaredName acceptsNull
  rw [accepts_eq hordinary, h]
  cases hk : t.kind <;> simp [isDyn, hk, Kind.isDyn, Acceptance.takesNull, null, plain]

theorem declaredName_nullable {t : Ty} (h : t.kind ≠ .null) : t.nullable.declaredName =
    if t.isDyn = true then t.name else "wrapper(" ++ t.name ++ ")" := by
  have hordinary : t.nullable.acceptance.isOrdinary = true := rfl
  unfold declaredName acceptsNull
  rw [accepts_eq hordinary]
  cases hk : t.kind <;>
    simp_all [isDyn, Kind.isDyn, Acceptance.takesNull, null, plain, nullable]

/-! ## Spelling what is shown -/

variable {typeParams : List String}

theorem spelled_of_name {name : String} {t : Ty} (hname : IsName name.toList)
    (hbuild : build typeParams name [] = .ok t) : Spelled typeParams name.toList t := by
  rw [← String.ofList_toList (s := name)] at hbuild
  have hspelled := Spelled.bare blanks_nil hname hbuild
  rwa [List.nil_append] at hspelled

theorem spelled_of_params {name : String} (stands : Ty → Ty) {p : Ty} {ps : List Ty} {t : Ty}
    (hname : IsName name.toList)
    (hparams : ∀ q ∈ p :: ps, Spelled typeParams q.display.toList (stands q))
    (hbuild : build typeParams name ((p :: ps).map stands) = .ok t) :
    Spelled typeParams (applied name ((p :: ps).map display)).toList t := by
  obtain ⟨hp, hps⟩ := List.forall_mem_cons.mp hparams
  have htypes : (⟨stands p, p.display.toList, []⟩ :: ps.map (shownAs stands)).map Argument.type =
      (p :: ps).map stands := by
    simp [shownAs]
  rw [← String.ofList_toList (s := name), ← htypes] at hbuild
  have hspelled := Spelled.applied blanks_nil hname blanks_nil
    (List.forall_mem_cons.mpr ⟨hp, List.forall_mem_map.mpr fun q hq => ?_⟩)
    (List.forall_mem_cons.mpr ⟨blanks_nil, List.forall_mem_map.mpr fun _ _ => blanks_nil⟩) hbuild
  · rw [toList_applied name stands]
    exact hspelled
  · have hspace : Blanks [' '] := by decide +kernel
    exact (hps q hq).blanks_append hspace

/-! ## Legible types -/

/-- The text of a type can be read, and gives a type of the same shape and text. -/
def Reread (typeParams : List String) (t : Ty) : Prop :=
  ∃ t', Spelled typeParams t.display.toList t' ∧ t'.shape = t.shape ∧ t'.display = t.display

/-- The text of a type can be read with either rule of acceptance at its root. -/
def Legible (typeParams : List String) (t : Ty) : Prop :=
  ∀ a : Acceptance, a.isOrdinary = true → (t.withAcceptance a).Reread typeParams

/-- An exception for `null` at the root makes no difference. -/
theorem Legible.nullable {t : Ty} (h : t.Legible typeParams) : t.nullable.Legible typeParams := h

theorem legible_of_shortName {t : Ty} {s : String} (hkind : t.kind.shortName? = some s)
    (hname : IsName s.toList) (hbuild : build typeParams s [] = .ok t) : t.Legible typeParams := by
  intro a _
  have hshown : (t.withAcceptance a).display = s := display_of_shortName hkind
  refine ⟨t, ?_, (t.shape_withAcceptance a).symm, ?_⟩
  · rw [hshown]
    exact spelled_of_name hname hbuild
  · rw [hshown, display_of_shortName hkind]

theorem legible_of_params_nil {t : Ty} (hkind : t.kind.shortName? = none) (hparams : t.params = [])
    (haccept : t.acceptance = .structural) (hname : IsName t.name.toList)
    (hbuild : build typeParams t.name [] = .ok t) : t.Legible typeParams := by
  have hdisplay : t.display = t.name := by
    rw [display_of_params_nil hkind hparams, declaredName_of_structural haccept]
  have hspelled : Spelled typeParams t.display.toList t := by
    rw [hdisplay]
    exact spelled_of_name hname hbuild
  have hplain : t.Reread typeParams := ⟨t, hspelled, rfl, rfl⟩
  intro a ha
  cases a with
  | structural =>
    rw [← haccept, withAcceptance_self]
    exact hplain
  | nullable =>
    have hnull : t.kind ≠ .null := by
      intro hk
      rw [hk] at hkind
      exact absurd hkind (by decide)
    have hshown : t.nullable.display =
        if t.isDyn = true then t.name else "wrapper(" ++ t.name ++ ")" := by
      rw [display_of_params_nil (t := t.nullable) hkind hparams, declaredName_nullable hnull]
    change t.nullable.Reread typeParams
    by_cases hdyn : t.isDyn = true
    · -- what is dynamic accepts `null` as it is, and is not shown as a wrapper
      rw [if_pos hdyn, ← hdisplay] at hshown
      refine ⟨t, ?_, (t.shape_withAcceptance .nullable).symm, hshown.symm⟩
      rw [hshown]
      exact hspelled
    · have hwrapped : t.nullable.display = applied "wrapper" ([t].map display) := by
        rw [hshown, if_neg hdyn, List.map_singleton, hdisplay]
        rfl
      refine ⟨t.nullable, ?_, rfl, rfl⟩
      rw [hwrapped]
      exact spelled_of_params id (by decide +kernel) (List.forall_mem_singleton.mpr hspelled) rfl
  | custom rule => exact absurd ha Bool.false_ne_true

theorem legible_of_params {t : Ty} (hkind : t.kind.shortName? = none) (hparams : t.params ≠ [])
    (hname : IsName t.name.toList) (hread : ∀ p ∈ t.params, p.Reread typeParams)
    (hbuild : ∀ ps : List Ty, ps.length = t.params.length →
      build typeParams t.name ps = .ok (t.withParams ps)) : t.Legible typeParams := by
  intro a _
  choose! f hspelled hshape hdisplay using hread
  have hshown : (t.withAcceptance a).display = applied t.name (t.params.map display) :=
    display_of_params hkind hparams
  have hnonempty : t.params.map f ≠ [] := by simpa using hparams
  have hsame : (t.params.map f).map display = t.params.map display := by
    rw [List.map_map]
    exact List.map_congr_left hdisplay
  refine ⟨t.withParams (t.params.map f), ?_, ?_, ?_⟩
  · rw [hshown]
    obtain ⟨p, ps, hps⟩ := List.exists_cons_of_ne_nil hparams
    rw [hps] at hspelled ⊢
    exact spelled_of_params f hname hspelled (by rw [← hps]; exact hbuild _ (List.length_map f))
  · rw [shape_withAcceptance, shape_eq, shape_eq t, shapes_eq_map, shapes_eq_map]
    change Shape.node t.kind t.name ((t.params.map f).map shape) = _
    rw [List.map_map]
    exact congrArg (Shape.node t.kind t.name) (List.map_congr_left hshape)
  · rw [hshown, display_of_params (t := t.withParams (t.params.map f)) hkind hnonempty]
    exact congrArg (applied t.name) hsame

/-! ## The types by name -/

/-- What is asked of a type in the induction: its text can be read, and its rule of acceptance is
one of the two that the induction speaks of. -/
structure Readable (typeParams : List String) (t : Ty) : Prop where
  /-- The text can be read with either rule. -/
  legible : t.Legible typeParams
  /-- The rule of acceptance is not custom. -/
  ordinary : t.acceptance.isOrdinary = true

theorem Readable.reread {t : Ty} (h : t.Readable typeParams) : t.Reread typeParams := by
  have hread := h.legible t.acceptance h.ordinary
  rwa [withAcceptance_self] at hread

theorem Readable.nullable {t : Ty} (h : t.Readable typeParams) : t.nullable.Readable typeParams :=
  ⟨h.legible.nullable, rfl⟩

theorem readable_of_shortName {t : Ty} {s : String} (hkind : t.kind.shortName? = some s)
    (haccept : t.acceptance = .structural) (hname : IsName s.toList)
    (hbuild : build typeParams s [] = .ok t) : t.Readable typeParams :=
  ⟨legible_of_shortName hkind hname hbuild, by rw [haccept]; rfl⟩

theorem readable_of_params_nil {t : Ty} (hkind : t.kind.shortName? = none) (hparams : t.params = [])
    (haccept : t.acceptance = .structural) (hname : IsName t.name.toList)
    (hbuild : build typeParams t.name [] = .ok t) : t.Readable typeParams :=
  ⟨legible_of_params_nil hkind hparams haccept hname hbuild, by rw [haccept]; rfl⟩

/-- A node with parameters is read again under its name if the name takes as many parameters. -/
theorem readable_of_params {kind : Kind} {name : String} {traits : TraitSet} {ps : List Ty}
    (hkind : kind.shortName? = none) (hparams : ps ≠ []) (hname : IsName name.toList)
    (hread : ∀ p ∈ ps, p.Readable typeParams)
    (hbuild : ∀ qs : List Ty, qs.length = ps.length →
      build typeParams name qs = .ok ⟨kind, name, qs, traits, .structural⟩) :
    Readable typeParams ⟨kind, name, ps, traits, .structural⟩ :=
  ⟨legible_of_params hkind hparams hname (fun p hp => (hread p hp).reread) hbuild, rfl⟩

theorem readable_of_param {kind : Kind} {name : String} {traits : TraitSet} {p : Ty}
    (hkind : kind.shortName? = none) (hname : IsName name.toList) (hread : p.Readable typeParams)
    (hbuild : ∀ q : Ty, build typeParams name [q] = .ok ⟨kind, name, [q], traits, .structural⟩) :
    Readable typeParams ⟨kind, name, [p], traits, .structural⟩ := by
  refine readable_of_params hkind (List.cons_ne_nil p []) hname
    (List.forall_mem_singleton.mpr hread) fun qs hqs => ?_
  obtain ⟨q, rfl⟩ := List.length_eq_one_iff.mp hqs
  exact hbuild q

/-- A name with parameters stands for a readable type. -/
theorem readable_of_build_params (name : String) {ps : List Ty} {t : Ty}
    (hname : IsName name.toList) (hparams : ps ≠ []) (hread : ∀ p ∈ ps, p.Readable typeParams)
    (h : build typeParams name ps = .ok t) : t.Readable typeParams := by
  unfold build at h
  split at h
  · split at h
    · next elem =>
      obtain rfl := Except.ok.inj h
      exact readable_of_param rfl (by decide +kernel) (hread elem List.mem_cons_self) fun _ => rfl
    · exact absurd h (by simp)
  split at h
  · split at h
    · obtain rfl := Except.ok.inj h
      refine readable_of_params rfl hparams (by decide +kernel) hread fun qs hqs => ?_
      obtain ⟨key, value, rfl⟩ := List.length_eq_two.mp hqs
      rfl
    · exact absurd h (by simp)
  split at h
  · split at h
    · exact absurd rfl hparams
    · next inner =>
      obtain rfl := Except.ok.inj h
      exact readable_of_param rfl (by decide +kernel) (hread inner List.mem_cons_self) fun _ => rfl
    · exact absurd h (by simp)
  split at h
  · split at h
    · next inner =>
      obtain rfl := Except.ok.inj h
      exact readable_of_param rfl (by decide +kernel) (hread inner List.mem_cons_self) fun _ => rfl
    · exact absurd h (by simp)
  split at h
  · split at h
    · next inner =>
      -- a wrapper is no node of its own: only the rule of acceptance changes
      obtain rfl := Except.ok.inj h
      exact (hread inner List.mem_cons_self).nullable
    · exact absurd h (by simp)
  split at h
  · exact absurd rfl hparams
  next hlist hmap htype hoptional hwrapper _ _ =>
  obtain rfl := Except.ok.inj h
  refine readable_of_params rfl hparams hname hread fun qs hqs => ?_
  obtain ⟨q, qs, rfl⟩ := List.exists_cons_of_length_pos
    (hqs ▸ List.length_pos_iff.mpr hparams : 0 < qs.length)
  unfold build
  rw [if_neg hlist, if_neg hmap, if_neg htype, if_neg hoptional, if_neg hwrapper]
  rfl

/-! ## Names without parameters -/

theorem mem_of_lookup_eq_some {name : String} {t : Ty} {entries : List (String × Ty)}
    (h : entries.lookup name = some t) : (name, t) ∈ entries := by
  obtain ⟨before, after, rfl, -⟩ := List.lookup_eq_some_iff.mp h
  simp

theorem readable_simpleTypes {name : String} {t : Ty} (h : (name, t) ∈ simpleTypes) :
    t.Readable typeParams := by
  have hall : ∀ e ∈ simpleTypes, e.2.Readable typeParams := by
    simp only [simpleTypes, List.forall_mem_cons]
    refine ⟨?bool, ?bytes, ?double, ?int, ?uint, ?string, ?dyn, ?any, ?error, ?null, ?null',
      ?duration, ?timestamp, by simp⟩
    case any | null | null' | duration | timestamp =>
      exact readable_of_shortName rfl rfl (by decide +kernel) rfl
    all_goals exact readable_of_params_nil rfl rfl rfl (by decide +kernel) rfl
  exact hall (name, t) h

theorem readable_wellKnownTypes {name : String} {t : Ty} (h : (name, t) ∈ wellKnownTypes) :
    t.Readable typeParams := by
  have hsimple : ∀ (n : String) (u : Ty), (n, u) ∈ simpleTypes → u.Readable typeParams :=
    fun _ _ => readable_simpleTypes
  have hbool := hsimple "bool" bool (by simp [simpleTypes])
  have hbytes := hsimple "bytes" bytes (by simp [simpleTypes])
  have hdouble := hsimple "double" double (by simp [simpleTypes])
  have hint := hsimple "int" int (by simp [simpleTypes])
  have hstring := hsimple "string" string (by simp [simpleTypes])
  have huint := hsimple "uint" uint (by simp [simpleTypes])
  have hany := hsimple "any" any (by simp [simpleTypes])
  have hduration := hsimple "duration" duration (by simp [simpleTypes])
  have htimestamp := hsimple "timestamp" timestamp (by simp [simpleTypes])
  have hnull := hsimple "null" null (by simp [simpleTypes])
  have hdyn := hsimple "dyn" dyn (by simp [simpleTypes])
  have hlist : (list dyn).Readable typeParams :=
    readable_of_build_params "list" (by decide +kernel) (List.cons_ne_nil dyn [])
      (List.forall_mem_singleton.mpr hdyn) rfl
  have hmap : (map string dyn).Readable typeParams :=
    readable_of_build_params "map" (by decide +kernel) (List.cons_ne_nil string [dyn])
      (List.forall_mem_cons.mpr ⟨hstring, List.forall_mem_singleton.mpr hdyn⟩) rfl
  have hall : ∀ e ∈ wellKnownTypes, e.2.Readable typeParams := by
    simp only [wellKnownTypes, List.forall_mem_cons]
    exact ⟨hbool.nullable, hbytes.nullable, hdouble.nullable, hdouble.nullable, hint.nullable,
      hint.nullable, hstring.nullable, huint.nullable, huint.nullable, hany, hduration, htimestamp,
      hlist, hnull, hmap, hdyn, by simp⟩
  exact hall (name, t) h

/-- A name without parameters stands for a readable type. -/
theorem readable_of_build_nil {name : String} {t : Ty} (hname : IsName name.toList)
    (h : build typeParams name [] = .ok t) : t.Readable typeParams := by
  -- a name that is shown as it was read is built again by the same call
  have hbuild := h
  unfold build at h
  split at h
  · exact absurd h (by simp)
  split at h
  · exact absurd h (by simp)
  split at h
  · obtain rfl := Except.ok.inj h
    exact readable_of_params_nil rfl rfl rfl (by decide +kernel) rfl
  split at h
  · exact absurd h (by simp)
  split at h
  · exact absurd h (by simp)
  dsimp only at h
  split at h
  · next found =>
    obtain rfl := Except.ok.inj h
    exact readable_simpleTypes (mem_of_lookup_eq_some found)
  · obtain rfl := Except.ok.inj h
    by_cases hparam : name ∈ typeParams
    · rw [if_pos hparam] at hbuild ⊢
      exact readable_of_params_nil rfl rfl rfl hname hbuild
    · rw [if_neg hparam] at hbuild ⊢
      unfold object at hbuild ⊢
      cases hknown : wellKnown? name with
      | some t => exact readable_wellKnownTypes (mem_of_lookup_eq_some hknown)
      | none =>
        rw [hknown] at hbuild
        exact readable_of_params_nil rfl rfl rfl hname hbuild

/-! ## The whole text -/

/-- **Every type that is spelled somehow is readable**, by induction over the spelling. -/
theorem readable_of_spelled {written : List Char} {t : Ty} (h : Spelled typeParams written t) :
    t.Readable typeParams := by
  induction h with
  | bare _ hname ht =>
    refine readable_of_build_nil ?_ ht
    rwa [String.toList_ofList]
  | applied _ hname _ _ _ ht ih =>
    refine readable_of_build_params _ ?_ (by simp) (List.forall_mem_map.mpr ih) ht
    rwa [String.toList_ofList]

/-- **Texts of types are read back.**  The text of a type that was read from a text is read as a
type of the same shape, with the same text. -/
theorem parse_display (text : String) (names : List String) (t : Ty)
    (h : parse text names = .ok t) :
    ∃ t', parse t.display names = .ok t' ∧ t'.isExact t = true ∧ t'.display = t.display := by
  obtain ⟨written, -, hwritten, -, -⟩ := parse_eq_ok_iff.mp h
  obtain ⟨t', hspelled, hshape, hdisplay⟩ := (readable_of_spelled hwritten).reread
  have hread : parse t.display names = .ok t' :=
    parse_eq_ok_iff.mpr ⟨_, [], hspelled, blanks_nil, (List.append_nil _).symm⟩
  exact ⟨t', hread, isExact_iff.mpr hshape, hdisplay⟩

/-- A type whose text shows one of its two exceptions for `null`. -/
def optionalCount : Ty := map (param "A") (nullable (optional (nullable int)))

theorem parse_display_optionalCount :
    parse " map(A ,wrapper( optional (google.protobuf.Int64Value)) )" ["A"] = .ok optionalCount ∧
      ∃ t', parse "map(A, optional_type(wrapper(int)))" ["A"] = .ok t' ∧
        t'.isExact optionalCount = true ∧ t'.display = "map(A, optional_type(wrapper(int)))" := by
  have hread : parse " map(A ,wrapper( optional (google.protobuf.Int64Value)) )" ["A"] =
      .ok optionalCount := rfl
  have hdisplay : optionalCount.display = "map(A, optional_type(wrapper(int)))" := by
    decide +kernel
  refine ⟨hread, ?_⟩
  rw [← hdisplay]
  exact parse_display _ _ _ hread

end Ty
end CelTyping
