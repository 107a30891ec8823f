/-!
# Refused declarations

The reasons for which a declaration, an alias or a container name is refused, with their wording.

Declarations are added one after the other, and the first that is refused ends the list; those
before it stay.  `runSteps` says so once for every such list: its result is the state after the
steps that succeeded, with the error of the first step that did not.
-/

namespace CelTyping

/-- What is wrong with a name that was meant to be qualified, or with an alias. -/
inductive NameFault where
  /-- A container name begins with a dot. -/
  | containerLeadingDot
  /-- An abbreviation is not of the form `qualified.name`. -/
  | notQualified
  /-- An alias is empty or qualified. -/
  | aliasNotSimple
  /-- A qualified name begins with a dot. -/
  | leadingDot
  /-- An alias stands for something that is not a qualified name. -/
  | aliasTarget
  /-- An alias hides the container. -/
  | collidesWithContainer
  deriving DecidableEq

/-- The wording of a fault. -/
def NameFault.reason : NameFault → String
  | containerLeadingDot => "container name must not contain a leading '.'"
  | notQualified => "wanted name of the form 'qualified.name'"
  | aliasNotSimple => "alias must be non-empty and simple (not qualified)"
  | leadingDot => "qualified name must not begin with a leading '.'"
  | aliasTarget => "alias must refer to a valid qualified name"
  | collidesWithContainer => "alias collides with container name"

/-- The two ways to make a short name. -/
inductive AliasKind where
  /-- A short name chosen freely. -/
  | alias
  /-- The last part of a qualified name. -/
  | abbreviation
  deriving DecidableEq

/-- The name of a way to make a short name. -/
def AliasKind.name : AliasKind → String
  | .alias => "alias"
  | .abbreviation => "abbreviation"

/-- Why a declaration is refused. -/
inductive DeclarationError where
  /-- Two overloads of a function accept the same arguments. -/
  | overloadCollision (function overload existing : String)
  /-- An overload is declared again with another signature. -/
  | overloadRedefinition (function overload : String)
  /-- A function has a shared implementation besides another one. -/
  | singletonConflict (function : String)
  /-- Two functions of different names are merged. -/
  | unrelatedMerge (function other : String)
  /-- An identifier is declared again with another type. -/
  | overlappingIdentifier (name : String)
  /-- An overload could never be called, because a macro takes its place. -/
  | overlappingMacro (name : String) (argCount : Nat)
  /-- A name is not what it has to be. -/
  | invalidQualifiedName (name : String) (fault : NameFault)
  /-- A short name already stands for something. -/
  | aliasCollision (kind : AliasKind) (name short existing : String)
  deriving DecidableEq

namespace DeclarationError

/-- The wording of an error. -/
def message : DeclarationError → String
  | overloadCollision function overload existing =>
    "overload signature collision in function " ++ function ++ ": " ++ overload ++
      " collides with " ++ existing
  | overloadRedefinition function overload =>
    "overload redefinition in function " ++ function ++ ": " ++ overload ++
      " has multiple definitions"
  | singletonConflict function => "function already has a singleton binding: " ++ function
  | unrelatedMerge function other =>
    "cannot merge unrelated functions. " ++ function ++ " and " ++ other
  | overlappingIdentifier name => "overlapping identifier for name '" ++ name ++ "'"
  | overlappingMacro name argCount =>
    "overlapping macro for name '" ++ name ++ "' with " ++ toString argCount ++ " args"
  | invalidQualifiedName name fault => "invalid qualified name: " ++ name ++ ", " ++ fault.reason
  | aliasCollision kind name short existing =>
    kind.name ++ " collides with existing reference: name=" ++ name ++ ", alias=" ++ short ++
      ", existing=" ++ existing

end DeclarationError

section Steps

variable {σ α ε : Type}

/-- Run a step for every item of a list up to the first that fails; the state is the one after
the steps before it. -/
def runSteps (step : σ → α → Except ε σ) : σ → List α → σ × Option ε
  | s, [] => (s, none)
  | s, a :: rest =>
    match step s a with
    | .ok s => runSteps step s rest
    | .error e => (s, some e)

theorem runSteps_nil (step : σ → α → Except ε σ) (s : σ) : runSteps step s [] = (s, none) := rfl

theorem runSteps_cons_ok {step : σ → α → Except ε σ} {s s' : σ} {a : α} (h : step s a = .ok s')
    (rest : List α) : runSteps step s (a :: rest) = runSteps step s' rest := by
  simp [runSteps, h]

theorem runSteps_cons_error {step : σ → α → Except ε σ} {s : σ} {a : α} {e : ε}
    (h : step s a = .error e) (rest : List α) :
    runSteps step s (a :: rest) = (s, some e) := by
  simp [runSteps, h]

end Steps
end CelTyping
