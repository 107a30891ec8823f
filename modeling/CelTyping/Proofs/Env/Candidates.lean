import CelTyping.Proofs.Env.Additions
import CelTyping.Proofs.Env.Locals

/-!
# Candidates are the enclosing namespaces

A container is named and then given aliases and abbreviations, some of which are refused.  What is
refused changes nothing, except that of a list of abbreviations those before the refused one stay.

`Container.run` does any of these things one after another.  One step either leaves the container
alone or gives a meaning to one short name that had none (`Extends`, `extends_addShortName`), so two
things hold after any number of steps.

* Every alias is simple and starts no name of the container (`MayAlias`), and means what it meant
  when it was given (`extends_run`).
* A relative name that starts with no alias is tried in the namespaces around, from the inside out,
  and then as it stands.  The namespaces are the prefixes of the name of the container that are all
  of it or end before a dot (`mem_namespaces_iff`), each once and the longest first
  (`pairwise_namespaces`).
-/

namespace CelTyping

/-! ## Prefixes that end before a dot -/

namespace DottedName

theorem mem_beforeDots_iff {p : List Char} : ∀ {read cs : List Char},
    p ∈ beforeDots read cs ↔ ∃ before after, cs = before ++ '.' :: after ∧ p = read ++ before
  | read, [] => by simp [beforeDots]
  | read, ch :: cs => by
    rw [beforeDots, List.mem_append, mem_beforeDots_iff]
    constructor
    · rintro (⟨before, after, rfl, rfl⟩ | h)
      · exact ⟨ch :: before, after, rfl, by simp⟩
      · split at h
        · next hdot => exact ⟨[], cs, by rw [hdot]; rfl, by simpa using h⟩
        · exact absurd h List.not_mem_nil
    · rintro ⟨_ | ⟨ch', before⟩, after, hcs, rfl⟩
      · obtain ⟨rfl, rfl⟩ := List.cons.inj hcs
        exact Or.inr (by simp)
      · obtain ⟨rfl, rfl⟩ := List.cons.inj hcs
        exact Or.inl ⟨before, after, rfl, by simp⟩

theorem pairwise_beforeDots : ∀ read cs : List Char,
    (beforeDots read cs).Pairwise fun p q => q.length < p.length
  | _, [] => List.Pairwise.nil
  | read, ch :: cs => by
    rw [beforeDots, List.pairwise_append]
    refine ⟨pairwise_beforeDots _ cs, ?_, fun p hp q hq => ?_⟩
    · split
      · exact List.pairwise_singleton _ _
      · exact List.Pairwise.nil
    · -- what is read further on is longer than what was read
      obtain ⟨before, after, -, rfl⟩ := mem_beforeDots_iff.mp hp
      split at hq
      · obtain rfl := List.mem_singleton.mp hq
        simp only [List.length_append, List.length_singleton]
        omega
      · exact absurd hq List.not_mem_nil

theorem mem_enclosing_iff {p cs : List Char} :
    p ∈ enclosing cs ↔ p = cs ∨ ∃ after, cs = p ++ '.' :: after := by
  rw [enclosing, List.mem_cons, mem_beforeDots_iff]
  simp

theorem pairwise_enclosing (cs : List Char) :
    (enclosing cs).Pairwise fun p q => q.length < p.length := by
  rw [enclosing, List.pairwise_cons]
  refine ⟨fun p hp => ?_, pairwise_beforeDots [] cs⟩
  obtain ⟨before, after, rfl, rfl⟩ := mem_beforeDots_iff.mp hp
  simp

/-- A namespace lies around a name: it is the name, or the part of it before one of its dots. -/
def Encloses (p name : String) : Prop := p = name ∨ ∃ rest, name = p ++ "." ++ rest

end DottedName

open DottedName

namespace Container

/-! ## Namespaces around a container -/

/-- The namespaces around what is in a container, from the inside out. -/
def namespaces (c : Container) : List String :=
  if c.name.isEmpty then [] else (enclosing c.name.toList).map String.ofList

theorem qualified_eq_map (c : Container) (name : String) :
    c.qualified name = c.namespaces.map (· ++ "." ++ name) := by
  unfold qualified namespaces
  split
  · rfl
  · rw [List.map_map]
    rfl

theorem mem_namespaces_iff {c : Container} {p : String} :
    p ∈ c.namespaces ↔ c.name ≠ "" ∧ Encloses p c.name := by
  unfold namespaces Encloses
  split
  · next hempty => simp [String.isEmpty_iff.mp hempty]
  · next hempty =>
    have hne : c.name ≠ "" := fun h => hempty (by simp [h])
    simp only [List.mem_map, mem_enclosing_iff]
    constructor
    · rintro ⟨cs, rfl | ⟨after, hcs⟩, rfl⟩
      · exact ⟨hne, Or.inl String.ofList_toList⟩
      · refine ⟨hne, Or.inr ⟨String.ofList after, ?_⟩⟩
        rw [← String.toList_inj, hcs]
        simp
    · rintro ⟨-, rfl | ⟨rest, hrest⟩⟩
      · exact ⟨_, Or.inl rfl, String.ofList_toList⟩
      · exact ⟨p.toList, Or.inr ⟨rest.toList, by rw [hrest]; simp⟩, String.ofList_toList⟩

/-- The longest namespace comes first. -/
theorem pairwise_namespaces (c : Container) :
    c.namespaces.Pairwise fun p q => q.length < p.length := by
  unfold namespaces
  split
  · exact List.Pairwise.nil
  · refine List.pairwise_map.mpr ((pairwise_enclosing _).imp fun h => ?_)
    rwa [String.length_ofList, String.length_ofList]

/-- Without an alias in the way, no candidate of a relative name is tried twice. -/
theorem nodup_qualified_append (c : Container) (name : String) :
    (c.qualified name ++ [name]).Nodup := by
  have hshorter : (c.qualified name ++ [name]).Pairwise fun p q => q.length < p.length := by
    rw [qualified_eq_map, List.pairwise_append]
    refine ⟨List.pairwise_map.mpr (c.pairwise_namespaces.imp fun h => ?_),
      List.pairwise_singleton _ _, fun p hp q hq => ?_⟩
    · simpa using h
    · obtain ⟨r, -, rfl⟩ := List.mem_map.mp hp
      obtain rfl := List.mem_singleton.mp hq
      simp only [String.length_append]
      have hdot : ".".length = 1 := rfl
      omega
  refine hshorter.imp fun {p q} h heq => ?_
  rw [heq] at h
  exact Nat.lt_irrefl _ h

/-! ## Giving aliases -/

/-- A short name can be an alias in a container of some name: it is simple, and no name that starts
with it is in the way. -/
structure MayAlias (name short : String) : Prop where
  /-- It is not empty. -/
  ne_empty : short ≠ ""
  /-- It has no dot. -/
  simple : '.' ∉ short.toList
  /-- It is not the name of the container. -/
  ne_name : short ≠ name
  /-- It is not the first segment of this name. -/
  ne_first : short ≠ String.ofList (firstSegment name.toList)

/-- A container comes from another by giving aliases: nothing that was there has changed, and what
is new may be an alias. -/
structure Extends (c c' : Container) : Prop where
  /-- The name is the same. -/
  name : c'.name = c.name
  /-- Aliases stay what they are. -/
  kept : ∀ short target, c.aliases.find? short = some target →
    c'.aliases.find? short = some target
  /-- Others may be aliases. -/
  added : ∀ short target, c'.aliases.find? short = some target →
    c.aliases.find? short = some target ∨ MayAlias c.name short

theorem Extends.refl (c : Container) : c.Extends c :=
  ⟨rfl, fun _ _ h => h, fun _ _ h => Or.inl h⟩

theorem Extends.trans {c d e : Container} (h : c.Extends d) (h' : d.Extends e) : c.Extends e where
  name := h'.name.trans h.name
  kept short target hfind := h'.kept short target (h.kept short target hfind)
  added short target hfind := by
    rcases h'.added short target hfind with hfind | hmay
    · exact h.added short target hfind
    · exact Or.inr (h.name ▸ hmay)

/-- **A short name that is not refused gets a meaning, and had none.** -/
theorem extends_addShortName {c c' : Container} {kind : AliasKind} {short name : String}
    (h : c.addShortName kind short name = .ok c') : c.Extends c' := by
  unfold addShortName at h
  split at h
  · cases h
  next hsimple =>
  split at h
  · cases h
  split at h
  · cases h
  split at h
  · cases h
  next hnone =>
  split at h
  · cases h
  next hfirst =>
  obtain rfl := Except.ok.inj h
  rw [not_or] at hsimple
  have hmay : MayAlias c.name short := by
    refine ⟨fun heq => hsimple.1 (by simp [heq]), hsimple.2, ?_, ?_⟩
    · rintro rfl
      exact hfirst (firstSegment_of_simple hsimple.2)
    · intro heq
      exact hfirst (by rw [heq, String.toList_ofList])
  refine ⟨rfl, fun other target hfind => ?_, fun other target hfind => ?_⟩
  · rw [Table.find?_insert_ne _ (fun heq => by rw [heq, hnone] at hfind; cases hfind)]
    exact hfind
  · rw [Table.find?_insert] at hfind
    split at hfind
    · next heq => exact Or.inr (heq ▸ hmay)
    · exact Or.inl hfind

theorem extends_addAbbreviation {c c' : Container} {name : String}
    (h : c.addAbbreviation name = .ok c') : c.Extends c' := by
  unfold addAbbreviation at h
  dsimp only at h
  split at h
  · split at h
    · exact extends_addShortName h
    · cases h
  · cases h

/-! ## Any number of steps -/

/-- Something that is done to a container. -/
inductive Act where
  /-- Give an alias. -/
  | addAlias (short name : String)
  /-- Give abbreviations. -/
  | addAbbreviations (names : List String)

/-- Do something to a container; it may be refused. -/
def perform (c : Container) : Act → Container
  | .addAlias short name => (c.addAlias short name).toOption.getD c
  | .addAbbreviations names => (c.addAbbreviations names).1

/-- Do one thing after another. -/
def run (c : Container) (acts : List Act) : Container := acts.foldl perform c

theorem extends_perform (c : Container) (act : Act) : c.Extends (c.perform act) := by
  cases act with
  | addAlias short name =>
    rw [perform]
    cases hadd : c.addAlias short name with
    | error e => exact .refl c
    | ok c' => exact extends_addShortName hadd
  | addAbbreviations names =>
    exact runSteps_invariant (P := c.Extends)
      (fun _ _ _ _ hext hadd => hext.trans (extends_addAbbreviation hadd)) (.refl c)

/-- **Aliases stay what they are**, and no alias is given that might not be one. -/
theorem extends_run (c : Container) (acts : List Act) : c.Extends (c.run acts) := by
  induction acts generalizing c with
  | nil => exact .refl c
  | cons act acts ih => exact (c.extends_perform act).trans (ih (c.perform act))

/-! ## Candidates -/

/-- A name is tried in the namespaces around: it is not absolute, and its first segment is no
alias. -/
def IsRelative (c : Container) (name : String) : Prop :=
  name.toList.head? ≠ some '.' ∧
    c.aliases.find? (String.ofList (firstSegment name.toList)) = none

/-- What is absolute or starts with an alias has one meaning. -/
theorem candidates_of_not_isRelative {c : Container} {name : String} (h : ¬ c.IsRelative name) :
    ∃ full, c.candidates name = [full] := by
  unfold candidates
  split
  · exact ⟨_, rfl⟩
  next habs =>
  split
  · exact ⟨_, rfl⟩
  next hnone =>
  refine absurd ⟨fun hhead => ?_, Option.map_eq_none_iff.mp hnone⟩ h
  obtain ⟨rest, hrest⟩ := List.head?_eq_some_iff.mp hhead
  exact habs rest hrest

/-- **Candidates are the enclosing namespaces**, in every container that was given aliases and
abbreviations.  Every alias it holds is simple, neither the name of the container nor the first
segment of it, and is never given another meaning.  A relative name is tried in the namespaces
around, the longest first, and then as it stands, and no name is tried twice; any other name has one
candidate. -/
theorem candidates_enclosing {name : String} {c : Container} (hc : ofName name = .ok c)
    (acts : List Act) :
    (c.run acts).name = name ∧
    (∀ short target, (c.run acts).aliases.find? short = some target →
      MayAlias name short ∧
        ∀ more, ((c.run acts).run more).aliases.find? short = some target) ∧
    ∀ n,
      ((c.run acts).IsRelative n → ∃ namespaces : List String,
        (c.run acts).candidates n = namespaces.map (· ++ "." ++ n) ++ [n] ∧
        (∀ p, p ∈ namespaces ↔ name ≠ "" ∧ Encloses p name) ∧
        namespaces.Pairwise (fun p q => q.length < p.length) ∧
        ((c.run acts).candidates n).Nodup) ∧
      (¬ (c.run acts).IsRelative n → ∃ full, (c.run acts).candidates n = [full]) := by
  obtain rfl : c = ⟨name, .empty⟩ := by
    unfold ofName at hc
    split at hc
    · cases hc
    · exact (Except.ok.inj hc).symm
  generalize hd : run ⟨name, .empty⟩ acts = d
  have hext : Extends ⟨name, .empty⟩ d := hd ▸ extends_run _ acts
  have hname : d.name = name := hext.name
  refine ⟨hname, fun short target hfind => ?_, fun n => ⟨fun hrel => ?_,
    candidates_of_not_isRelative⟩⟩
  · refine ⟨?_, fun more => (extends_run d more).kept short target hfind⟩
    rcases hext.added short target hfind with hempty | hmay
    · cases hempty
    · exact hmay
  · have hcandidates := candidates_relative hrel.1 (findAlias?_eq_none hrel.2)
    refine ⟨d.namespaces, ?_, fun p => ?_, d.pairwise_namespaces, ?_⟩
    · rw [hcandidates, qualified_eq_map]
    · rw [mem_namespaces_iff, hname]
    · rw [hcandidates]
      exact d.nodup_qualified_append n

/-- A container with an empty segment in its name. -/
def gapped : Container := ⟨"a..b", .empty⟩

/-- An alias, abbreviations of which the second is refused, and two aliases that are refused. -/
def gappedActs : List Act :=
  [.addAlias "p" "x.y", .addAbbreviations ["my.R", "", "z.q"], .addAlias "p" "x.z",
    .addAlias "a" "x.y"]

/-- In the container `a..b` the name `x` is also tried as `a..x`, and the abbreviation before the
one that is refused is never given another meaning. -/
theorem candidates_enclosing_gapped :
    ofName "a..b" = .ok gapped ∧
    (gapped.run gappedActs).aliases.find? "R" = some "my.R" ∧
    ((gapped.run gappedActs).run [.addAlias "R" "your.R"]).aliases.find? "R" = some "my.R" ∧
    (gapped.run gappedActs).IsRelative "x" ∧
    "a..x" ∈ (gapped.run gappedActs).candidates "x" ∧
    ¬ (gapped.run gappedActs).IsRelative "p.x" ∧
    (∃ full, (gapped.run gappedActs).candidates "p.x" = [full]) := by
  have hname : ofName "a..b" = .ok gapped := rfl
  obtain ⟨-, haliases, hcandidates⟩ := candidates_enclosing hname gappedActs
  have hR : (gapped.run gappedActs).aliases.find? "R" = some "my.R" := by decide +kernel
  have hrel : (gapped.run gappedActs).IsRelative "x" := ⟨by decide +kernel, by decide +kernel⟩
  have hp : (gapped.run gappedActs).aliases.find? (String.ofList (firstSegment "p.x".toList)) =
      some "x.y" := by decide +kernel
  have halias : ¬ (gapped.run gappedActs).IsRelative "p.x" := by
    rintro ⟨-, hnone⟩
    rw [hp] at hnone
    cases hnone
  obtain ⟨namespaces, hlist, hmem, -, -⟩ := (hcandidates "x").1 hrel
  have hspace : "a." ∈ namespaces := (hmem "a.").mpr ⟨by decide, Or.inr ⟨"b", rfl⟩⟩
  refine ⟨hname, hR, (haliases "R" "my.R" hR).2 _, hrel, ?_, halias, (hcandidates "p.x").2 halias⟩
  rw [hlist]
  exact List.mem_append_left _ (List.mem_map.mpr ⟨"a.", hspace, rfl⟩)

end Container
end CelTyping
