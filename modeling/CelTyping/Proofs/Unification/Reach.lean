import CelTyping.Proofs.Ty.Nodes
import CelTyping.Unification.Substitute
import Mathlib.Logic.Relation

/-!
# Reachable parameters and mappings without cycles

A mapping binds type parameters to types that may mention further parameters.  A parameter `p`
*leads* to a parameter `q` when `p` is bound to a type in which `q` occurs, and a mapping is
*acyclic* when no parameter leads back to itself, in one step or in many.  A type *reaches* the
parameters that occur in it and all parameters these lead to.

## Why following bindings ends

`Settles d t` says that following bindings from `t` downwards ends within `d` steps.  Under an
acyclic mapping the number of nodes of `t` and of all bound types is enough
(`Acyclic.settles`): once the binding of a parameter has been followed, the parameter is not
reached again, so its binding can be taken out of the mapping (`Mapping.without`) and the nodes of
the bound type are paid for by what was taken out.

* `isAbsentWithin_spec`, `Acyclic.isSome_isAbsent?`: `isAbsent?` decides, for an acyclic mapping
  over well-formed types, whether a parameter is out of reach.
* `Acyclic.add`: binding a parameter to a type that does not reach it closes no cycle.
-/

namespace CelTyping

open Relation

namespace Ty

/-! ## Occurrences -/

/-- The type parameter of a key occurs in a type. -/
def Mentions (t : Ty) (p : String) : Prop := ∃ u ∈ t.nodes, u.isParam = true ∧ u.key = p

instance (t : Ty) (p : String) : Decidable (t.Mentions p) :=
  inferInstanceAs (Decidable (∃ u ∈ t.nodes, u.isParam = true ∧ u.key = p))

/-- Only nodes of the kinds that carry parameters have parameters. -/
def WellFormed (t : Ty) : Prop := ∀ u ∈ t.nodes, u.params = [] ∨ u.kind.isParameterized = true

instance (t : Ty) : Decidable t.WellFormed :=
  inferInstanceAs (Decidable (∀ u ∈ t.nodes, u.params = [] ∨ u.kind.isParameterized = true))

theorem WellFormed.of_mem_nodes {t u : Ty} (h : t.WellFormed) (hu : u ∈ t.nodes) : u.WellFormed :=
  fun v hv => h v (mem_nodes_trans hu hv)

theorem WellFormed.of_mem_params {t p : Ty} (h : t.WellFormed) (hp : p ∈ t.params) :
    p.WellFormed :=
  h.of_mem_nodes (mem_nodes_of_mem_params hp (mem_nodes_self p))

theorem WellFormed.params_nil {t : Ty} (h : t.WellFormed) (hk : t.kind.isParameterized = false) :
    t.params = [] := by
  rcases h t (mem_nodes_self t) with hnil | hpar
  · exact hnil
  · rw [hk] at hpar
    exact absurd hpar (by simp)

/-- A well-formed type parameter has no parameters of its own. -/
theorem WellFormed.params_nil_of_isParam {t : Ty} (h : t.WellFormed) (hp : t.isParam = true) :
    t.params = [] := by
  refine h.params_nil ?_
  rw [isParam_iff.mp hp]
  rfl

/-- Two well-formed type parameters are exactly equal when their keys are. -/
theorem isExact_iff_key {a b : Ty} (ha : a.WellFormed) (hb : b.WellFormed) (hpa : a.isParam = true)
    (hpb : b.isParam = true) : a.isExact b ↔ a.key = b.key := by
  have hna := ha.params_nil_of_isParam hpa
  have hnb := hb.params_nil_of_isParam hpb
  rw [isExact_iff, shape_eq, shape_eq, key_of_params_nil hna, key_of_params_nil hnb, hna, hnb,
    isParam_iff.mp hpa, isParam_iff.mp hpb, Shape.node.injEq]
  simp

theorem Mentions.of_mem_params {t c : Ty} {p : String} (hc : c ∈ t.params) (h : c.Mentions p) :
    t.Mentions p := by
  obtain ⟨u, hu, hup⟩ := h
  exact ⟨u, mem_nodes_of_mem_params hc hu, hup⟩

theorem mentions_key {t : Ty} (h : t.isParam = true) : t.Mentions t.key :=
  ⟨t, mem_nodes_self t, h, rfl⟩

/-- A type parameter mentions itself and, being well-formed, nothing else. -/
theorem mentions_iff_of_isParam {t : Ty} (ht : t.WellFormed) (h : t.isParam = true) {p : String} :
    t.Mentions p ↔ t.key = p := by
  constructor
  · rintro ⟨u, hu, -, hkey⟩
    rcases mem_nodes_iff.mp hu with rfl | ⟨c, hc, -⟩
    · exact hkey
    · rw [ht.params_nil_of_isParam h] at hc
      exact absurd hc List.not_mem_nil
  · rintro rfl
    exact mentions_key h

/-- A type that is no parameter mentions what its parameters mention. -/
theorem mentions_iff_of_not_isParam {t : Ty} (h : t.isParam = false) {p : String} :
    t.Mentions p ↔ ∃ c ∈ t.params, c.Mentions p := by
  constructor
  · rintro ⟨u, hu, hpar, hkey⟩
    rcases mem_nodes_iff.mp hu with rfl | ⟨c, hc, huc⟩
    · rw [h] at hpar
      exact absurd hpar (by simp)
    · exact ⟨c, hc, u, huc, hpar, hkey⟩
  · rintro ⟨c, hc, hm⟩
    exact hm.of_mem_params hc

end Ty

namespace Mapping

/-! ## Leading and reaching -/

/-- A parameter is bound to a type in which another occurs. -/
def Leads (m : Mapping) (p q : String) : Prop :=
  ∃ t, m.bindings.find? p = some t ∧ t.Mentions q

/-- No parameter leads back to itself. -/
def Acyclic (m : Mapping) : Prop := ∀ p, ¬ TransGen m.Leads p p

/-- A parameter occurs in a type or is led to by one that does. -/
def Reaches (m : Mapping) (t : Ty) (p : String) : Prop :=
  ∃ q, t.Mentions q ∧ ReflTransGen m.Leads q p

/-- All bound types are well-formed. -/
def WellFormed (m : Mapping) : Prop := ∀ p t, m.bindings.find? p = some t → t.WellFormed

theorem Reaches.of_mentions {m : Mapping} {t : Ty} {p : String} (h : t.Mentions p) :
    m.Reaches t p :=
  ⟨p, h, ReflTransGen.refl⟩

theorem Reaches.of_mem_params {m : Mapping} {t c : Ty} {p : String} (hc : c ∈ t.params)
    (h : m.Reaches c p) : m.Reaches t p := by
  obtain ⟨q, hq, hqp⟩ := h
  exact ⟨q, hq.of_mem_params hc, hqp⟩

theorem reaches_iff_of_not_isParam {m : Mapping} {t : Ty} (h : t.isParam = false) {p : String} :
    m.Reaches t p ↔ ∃ c ∈ t.params, m.Reaches c p := by
  constructor
  · rintro ⟨q, hq, hqp⟩
    obtain ⟨c, hc, hm⟩ := (Ty.mentions_iff_of_not_isParam h).mp hq
    exact ⟨c, hc, q, hm, hqp⟩
  · rintro ⟨c, hc, hr⟩
    exact hr.of_mem_params hc

/-- What the type that a parameter is bound to reaches, the parameter leads to. -/
theorem transGen_of_reaches {m : Mapping} {p q : String} {t : Ty}
    (hb : m.bindings.find? p = some t) (h : m.Reaches t q) : TransGen m.Leads p q := by
  obtain ⟨r, hr, hrq⟩ := h
  exact TransGen.head' ⟨t, hb, hr⟩ hrq

/-- A parameter is out of reach of what it is bound to. -/
theorem Acyclic.not_reaches {m : Mapping} (hm : m.Acyclic) {p : String} {t : Ty}
    (hb : m.bindings.find? p = some t) : ¬ m.Reaches t p :=
  fun h => hm p (transGen_of_reaches hb h)

theorem reaches_of_bound {m : Mapping} {t b : Ty} (hp : t.isParam = true)
    (hb : m.find? t = some b) {p : String} (h : m.Reaches b p) : m.Reaches t p :=
  ⟨t.key, Ty.mentions_key hp, (transGen_of_reaches hb h).to_reflTransGen⟩

/-- A bound parameter reaches itself and what its bound type reaches. -/
theorem reaches_iff_of_bound {m : Mapping} {t b : Ty} (ht : t.WellFormed) (hp : t.isParam = true)
    (hb : m.find? t = some b) {p : String} : m.Reaches t p ↔ t.key = p ∨ m.Reaches b p := by
  constructor
  · rintro ⟨q, hq, hqp⟩
    have hkey := (Ty.mentions_iff_of_isParam ht hp).mp hq
    rcases ReflTransGen.cases_head hqp with heq | ⟨r, ⟨b', hb', hr⟩, hrp⟩
    · exact Or.inl (hkey.trans heq)
    · have hbb : b = b' := by
        rw [← hkey] at hb'
        exact Option.some.inj (hb.symm.trans hb')
      exact Or.inr ⟨r, hbb ▸ hr, hrp⟩
  · rintro (rfl | h)
    · exact Reaches.of_mentions (Ty.mentions_key hp)
    · exact reaches_of_bound hp hb h

/-- An unbound parameter reaches only itself. -/
theorem reaches_iff_of_unbound {m : Mapping} {t : Ty} (ht : t.WellFormed) (hp : t.isParam = true)
    (hb : m.find? t = none) {p : String} : m.Reaches t p ↔ t.key = p := by
  constructor
  · rintro ⟨q, hq, hqp⟩
    have hkey := (Ty.mentions_iff_of_isParam ht hp).mp hq
    rcases ReflTransGen.cases_head hqp with heq | ⟨r, ⟨b', hb', -⟩, -⟩
    · exact hkey.trans heq
    · rw [← hkey] at hb'
      exact absurd (hb.symm.trans hb') (by simp)
  · rintro rfl
    exact Reaches.of_mentions (Ty.mentions_key hp)

/-! ## Binding one more parameter -/

theorem bindings_find?_add (m : Mapping) (t bound : Ty) (p : String) :
    (m.add t bound).bindings.find? p = if p = t.key then some bound else m.bindings.find? p :=
  Table.find?_insert _ _ _ _

theorem leads_add_iff {m : Mapping} {t bound : Ty} {p q : String} :
    (m.add t bound).Leads p q ↔ if p = t.key then bound.Mentions q else m.Leads p q := by
  unfold Leads
  rw [bindings_find?_add]
  by_cases h : p = t.key
  · simp [h]
  · simp [h]

/-- From a parameter that does not lead to the new one, nothing has changed. -/
theorem reflTransGen_of_add {m : Mapping} {t bound : Ty} {p q : String}
    (hp : ¬ ReflTransGen m.Leads p t.key) (h : ReflTransGen (m.add t bound).Leads p q) :
    ReflTransGen m.Leads p q := by
  induction h with
  | refl => exact ReflTransGen.refl
  | @tail r s _ hrs ih =>
    have hr : r ≠ t.key := fun heq => hp (heq ▸ ih)
    rw [leads_add_iff, if_neg hr] at hrs
    exact ih.tail hrs

/-- A chain either avoids the new binding or goes through it. -/
theorem transGen_add_split {m : Mapping} {t bound : Ty} {p q : String}
    (h : TransGen (m.add t bound).Leads p q) :
    TransGen m.Leads p q ∨ (ReflTransGen (m.add t bound).Leads p t.key ∧
      ∃ r, bound.Mentions r ∧ ReflTransGen (m.add t bound).Leads r q) := by
  induction h with
  | @single r hpr =>
    by_cases hp : p = t.key
    · rw [leads_add_iff, if_pos hp] at hpr
      exact Or.inr ⟨hp ▸ ReflTransGen.refl, r, hpr, ReflTransGen.refl⟩
    · rw [leads_add_iff, if_neg hp] at hpr
      exact Or.inl (TransGen.single hpr)
  | @tail r s hpr hrs ih =>
    by_cases hr : r = t.key
    · have hrs' := hrs
      rw [leads_add_iff, if_pos hr] at hrs'
      exact Or.inr ⟨hr ▸ hpr.to_reflTransGen, s, hrs', ReflTransGen.refl⟩
    · rcases ih with ih | ⟨hpt, x, hx, hxr⟩
      · rw [leads_add_iff, if_neg hr] at hrs
        exact Or.inl (ih.tail hrs)
      · exact Or.inr ⟨hpt, x, hx, hxr.tail hrs⟩

/-- **Binding a parameter to a type that does not reach it closes no cycle**, whatever the
parameter was bound to before. -/
theorem Acyclic.add {m : Mapping} (hm : m.Acyclic) {t bound : Ty}
    (h : ¬ m.Reaches bound t.key) : (m.add t bound).Acyclic := by
  intro p hcycle
  rcases transGen_add_split hcycle with hold | ⟨hpt, r, hr, hrp⟩
  · exact hm p hold
  · have hrt : ¬ ReflTransGen m.Leads r t.key := fun hrt => h ⟨r, hr, hrt⟩
    exact hrt (reflTransGen_of_add hrt (hrp.trans hpt))

theorem acyclic_empty : empty.Acyclic := by
  intro p hcycle
  obtain ⟨q, ⟨t, ht, -⟩, -⟩ := TransGen.head'_iff.mp hcycle
  exact absurd ht (by simp [empty])

theorem reaches_empty_iff {t : Ty} {p : String} : empty.Reaches t p ↔ t.Mentions p := by
  refine ⟨?_, .of_mentions⟩
  rintro ⟨q, hq, hsteps⟩
  rcases ReflTransGen.cases_head hsteps with rfl | ⟨r, ⟨u, hu, -⟩, -⟩
  · exact hq
  · exact absurd hu (by simp [empty])

theorem wellFormed_empty : empty.WellFormed := by
  intro p t ht
  exact absurd ht (by simp [empty])

theorem WellFormed.add {m : Mapping} (hm : m.WellFormed) {t bound : Ty} (hb : bound.WellFormed) :
    (m.add t bound).WellFormed := by
  intro p u hu
  rw [bindings_find?_add] at hu
  by_cases hp : p = t.key
  · rw [if_pos hp] at hu
    exact Option.some.inj hu ▸ hb
  · rw [if_neg hp] at hu
    exact hm p u hu

/-! ## Taking a binding out -/

/-- The mapping without what it says about a parameter. -/
def without (m : Mapping) (p : String) : Mapping :=
  ⟨⟨m.bindings.entries.filter fun e => e.1 ≠ p⟩⟩

theorem lookup_filter_ne (p q : String) (es : List (String × Ty)) :
    Table.lookup q (es.filter fun e => e.1 ≠ p) = if q = p then none else Table.lookup q es := by
  induction es with
  | nil => simp [Table.lookup]
  | cons e rest ih =>
    obtain ⟨k, t⟩ := e
    by_cases hk : k = p
    · rw [List.filter_cons_of_neg (by simp [hk]), ih, Table.lookup, hk]
      by_cases hq : q = p
      · simp [hq]
      · simp [hq]
    · rw [List.filter_cons_of_pos (by simp [hk]), Table.lookup, Table.lookup, ih]
      by_cases hq : q = k
      · have hqp : q ≠ p := fun h => hk (hq ▸ h)
        rw [if_pos hq, if_pos hq, if_neg hqp]
      · rw [if_neg hq, if_neg hq]

theorem bindings_find?_without (m : Mapping) (p q : String) :
    (m.without p).bindings.find? q = if q = p then none else m.bindings.find? q :=
  lookup_filter_ne p q m.bindings.entries

theorem leads_of_without {m : Mapping} {p q r : String} (h : (m.without p).Leads q r) :
    m.Leads q r := by
  obtain ⟨t, ht, hr⟩ := h
  rw [bindings_find?_without] at ht
  by_cases hq : q = p
  · rw [if_pos hq] at ht
    exact absurd ht (by simp)
  · rw [if_neg hq] at ht
    exact ⟨t, ht, hr⟩

theorem Acyclic.without {m : Mapping} (hm : m.Acyclic) (p : String) : (m.without p).Acyclic :=
  fun q hq => hm q (TransGen.mono (fun _ _ => leads_of_without) _ _ hq)

theorem sizes_filter_le (f : String × Ty → Bool) (es : List (String × Ty)) :
    Ty.sizes ((es.filter f).map Prod.snd) ≤ Ty.sizes (es.map Prod.snd) := by
  induction es with
  | nil => exact Nat.le_refl _
  | cons e rest ih =>
    cases he : f e with
    | false =>
      rw [List.filter_cons_of_neg (by simp [he]), List.map_cons, Ty.sizes]
      omega
    | true =>
      rw [List.filter_cons_of_pos he, List.map_cons, List.map_cons, Ty.sizes, Ty.sizes]
      omega

/-- Taking a binding out makes a mapping lighter by at least the type that was bound. -/
theorem weight_without_add_size_le {m : Mapping} {p : String} {t : Ty}
    (hb : m.bindings.find? p = some t) : (m.without p).weight + t.size ≤ m.weight := by
  have hentries : ∀ es : List (String × Ty), Table.lookup p es = some t →
      Ty.sizes ((es.filter fun e => e.1 ≠ p).map Prod.snd) + t.size ≤
        Ty.sizes (es.map Prod.snd) := by
    intro es
    induction es with
    | nil => intro h; simp [Table.lookup] at h
    | cons e rest ih =>
      obtain ⟨k, u⟩ := e
      intro h
      rw [Table.lookup] at h
      rw [List.map_cons, Ty.sizes]
      by_cases hk : p = k
      · rw [if_pos hk] at h
        obtain rfl := Option.some.inj h
        have hrest := sizes_filter_le (fun e => decide (e.1 ≠ p)) rest
        rw [List.filter_cons_of_neg (by simp [hk])]
        show _ + u.size ≤ u.size + _
        omega
      · rw [if_neg hk] at h
        have hsub := ih h
        rw [List.filter_cons_of_pos (by simpa using fun h' => hk h'.symm), List.map_cons, Ty.sizes]
        omega
  exact hentries m.bindings.entries hb

/-! ## Following bindings ends -/

/-- Following bindings from a type downwards ends within a number of steps. -/
def Settles (m : Mapping) : (depth : Nat) → Ty → Prop
  | 0, _ => False
  | depth + 1, t =>
    if t.isParam then ∀ b, m.find? t = some b → m.Settles depth b
    else ∀ c ∈ t.params, m.Settles depth c

theorem settles_succ_of_isParam {m : Mapping} {d : Nat} {t : Ty} (h : t.isParam = true) :
    m.Settles (d + 1) t ↔ ∀ b, m.find? t = some b → m.Settles d b := by
  rw [Settles, if_pos h]

theorem settles_succ_of_not_isParam {m : Mapping} {d : Nat} {t : Ty} (h : t.isParam = false) :
    m.Settles (d + 1) t ↔ ∀ c ∈ t.params, m.Settles d c := by
  rw [Settles, if_neg (by simp [h])]

/-- A binding that is out of reach makes no difference. -/
theorem Settles.of_without {m : Mapping} {p : String} :
    ∀ {d : Nat} {t : Ty}, ¬ m.Reaches t p → (m.without p).Settles d t → m.Settles d t
  | 0, _, _, h => h
  | d + 1, t, hp, h => by
    cases hpar : t.isParam with
    | true =>
      rw [settles_succ_of_isParam hpar] at h ⊢
      intro b hb
      have hkey : t.key ≠ p := fun heq => hp (heq ▸ Reaches.of_mentions (Ty.mentions_key hpar))
      have hb' : (m.without p).find? t = some b := by
        unfold find?
        rw [bindings_find?_without, if_neg hkey]
        exact hb
      exact Settles.of_without (fun hr => hp (reaches_of_bound hpar hb hr)) (h b hb')
    | false =>
      rw [settles_succ_of_not_isParam hpar] at h ⊢
      intro c hc
      exact Settles.of_without (fun hr => hp (hr.of_mem_params hc)) (h c hc)

/-- **Under a mapping without cycles following bindings ends**, within as many steps as the type
and all bound types have nodes. -/
theorem Acyclic.settles {m : Mapping} (hm : m.Acyclic) {d : Nat} {t : Ty}
    (hd : m.depthBound t ≤ d) : m.Settles d t := by
  induction d generalizing m t with
  | zero =>
    have hpos := t.size_pos
    unfold depthBound at hd
    omega
  | succ d ih =>
    have hpos := t.size_pos
    unfold depthBound at hd
    cases hpar : t.isParam with
    | true =>
      rw [settles_succ_of_isParam hpar]
      intro b hb
      -- the binding that is followed here is out of reach below
      refine Settles.of_without (p := t.key) (hm.not_reaches hb) (ih (hm.without t.key) ?_)
      have hweight := weight_without_add_size_le hb
      unfold depthBound
      omega
    | false =>
      rw [settles_succ_of_not_isParam hpar]
      intro c hc
      refine ih hm ?_
      have hsize := Ty.size_lt_of_mem_params hc
      unfold depthBound
      omega

/-! ## What `isAbsent?` decides -/

theorem isAbsentWithin_succ (m : Mapping) (p : Ty) (d : Nat) (t : Ty) :
    m.isAbsentWithin p (d + 1) t =
      if p.isExact t then some false
      else if t.isParam then
        match m.find? t with
        | some b => m.isAbsentWithin p d b
        | none => some true
      else if t.kind.isParameterized then t.params.allM (m.isAbsentWithin p d)
      else some true := by
  rw [isAbsentWithin]
  unfold Ty.isParam
  cases t.kind <;> rfl

theorem allM_eq_some_true {f : Ty → Option Bool} :
    ∀ {ts : List Ty}, ts.allM f = some true → ∀ t ∈ ts, f t = some true
  | [], _ => by simp
  | t :: rest, h => by
    rw [List.allM] at h
    obtain ⟨b, hb, h⟩ := Option.bind_eq_some_iff.mp h
    cases b with
    | false => exact absurd h (by simp)
    | true => exact List.forall_mem_cons.mpr ⟨hb, allM_eq_some_true h⟩

theorem allM_eq_some_false {f : Ty → Option Bool} :
    ∀ {ts : List Ty}, ts.allM f = some false → ∃ t ∈ ts, f t = some false
  | [], h => by simp [List.allM] at h
  | t :: rest, h => by
    rw [List.allM] at h
    obtain ⟨b, hb, h⟩ := Option.bind_eq_some_iff.mp h
    cases b with
    | false => exact ⟨t, List.mem_cons_self, hb⟩
    | true =>
      obtain ⟨u, hu, hfu⟩ := allM_eq_some_false h
      exact ⟨u, List.mem_cons_of_mem t hu, hfu⟩

theorem isSome_allM {f : Ty → Option Bool} :
    ∀ {ts : List Ty}, (∀ t ∈ ts, (f t).isSome) → (ts.allM f).isSome
  | [], _ => rfl
  | t :: rest, h => by
    obtain ⟨b, hb⟩ := Option.isSome_iff_exists.mp (h t List.mem_cons_self)
    rw [List.allM, hb]
    cases b with
    | false => rfl
    | true => exact isSome_allM fun u hu => h u (List.mem_cons_of_mem t hu)

/-- When `isAbsentWithin` has an answer, it says whether the parameter is out of reach. -/
theorem isAbsentWithin_spec {m : Mapping} (hm : m.WellFormed) {p : Ty} (hp : p.WellFormed)
    (hpar : p.isParam = true) {d : Nat} {t : Ty} (ht : t.WellFormed) {r : Bool}
    (h : m.isAbsentWithin p d t = some r) : r = true ↔ ¬ m.Reaches t p.key := by
  induction d generalizing t r with
  | zero => exact absurd h (by simp [isAbsentWithin])
  | succ d ih =>
    rw [isAbsentWithin_succ] at h
    by_cases hex : p.isExact t
    · rw [if_pos hex] at h
      have htpar : t.isParam = true := by
        rw [Ty.isParam_iff] at hpar ⊢
        exact Ty.kind_eq_of_isExact hex ▸ hpar
      have hkey := (Ty.isExact_iff_key hp ht hpar htpar).mp hex
      have hreach : m.Reaches t p.key := Reaches.of_mentions (hkey ▸ Ty.mentions_key htpar)
      simp [← Option.some.inj h, hreach]
    · rw [if_neg hex] at h
      cases htpar : t.isParam with
      | true =>
        rw [if_pos htpar] at h
        have hkey : t.key ≠ p.key := fun heq =>
          hex ((Ty.isExact_iff_key hp ht hpar htpar).mpr heq.symm)
        cases hb : m.find? t with
        | none =>
          rw [hb] at h
          rw [reaches_iff_of_unbound ht htpar hb, ← Option.some.inj h]
          simp [hkey]
        | some b =>
          rw [hb] at h
          rw [reaches_iff_of_bound ht htpar hb, ih (hm _ b hb) h]
          simp [hkey]
      | false =>
        rw [if_neg (by simp [htpar])] at h
        rw [reaches_iff_of_not_isParam htpar]
        by_cases hk : t.kind.isParameterized
        · rw [if_pos hk] at h
          cases r with
          | true =>
            have hall := allM_eq_some_true h
            simp only [true_iff, not_exists, not_and]
            intro c hc
            exact (ih (ht.of_mem_params hc) (hall c hc)).mp rfl
          | false =>
            obtain ⟨c, hc, hfc⟩ := allM_eq_some_false h
            have hcr := (ih (ht.of_mem_params hc) hfc).not.mp (by simp)
            simp only [Bool.false_eq_true, false_iff, not_not] at hcr ⊢
            exact ⟨c, hc, hcr⟩
        · rw [if_neg hk] at h
          have hnil := ht.params_nil (by simpa using hk)
          simp [← Option.some.inj h, hnil]

theorem Settles.isSome_isAbsentWithin {m : Mapping} {p : Ty} {d : Nat} {t : Ty}
    (h : m.Settles d t) : (m.isAbsentWithin p d t).isSome := by
  induction d generalizing t with
  | zero => exact absurd h (by simp [Settles])
  | succ d ih =>
    rw [isAbsentWithin_succ]
    by_cases hex : p.isExact t
    · rw [if_pos hex]
      rfl
    · rw [if_neg hex]
      cases hpar : t.isParam with
      | true =>
        rw [if_pos rfl]
        rw [settles_succ_of_isParam hpar] at h
        cases hb : m.find? t with
        | none => rfl
        | some b => exact ih (h b hb)
      | false =>
        rw [if_neg (by simp)]
        rw [settles_succ_of_not_isParam hpar] at h
        by_cases hk : t.kind.isParameterized
        · rw [if_pos hk]
          exact isSome_allM fun c hc => ih (h c hc)
        · rw [if_neg hk]
          rfl

/-- Under a mapping without cycles the question whether a type occurs in another has an
answer. -/
theorem Acyclic.isSome_isAbsent? {m : Mapping} (hm : m.Acyclic) (p t : Ty) :
    (m.isAbsent? p t).isSome :=
  (hm.settles (Nat.le_refl _)).isSome_isAbsentWithin

theorem isAbsent?_spec {m : Mapping} (hm : m.WellFormed) {p t : Ty} (hp : p.WellFormed)
    (hpar : p.isParam = true) (ht : t.WellFormed) {r : Bool} (h : m.isAbsent? p t = some r) :
    r = true ↔ ¬ m.Reaches t p.key :=
  isAbsentWithin_spec hm hp hpar ht h

end Mapping
end CelTyping
