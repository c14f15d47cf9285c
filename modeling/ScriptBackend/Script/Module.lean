import ScriptBackend.Options
import ScriptBackend.Script.Emitter
import ScriptBackend.Selection

/-! # Script modules

The module of a program is written along an outline (`outline`), a list of steps that
depends only on the options and the program: text of the frame, changes of the level, and
calls to the emitter.  The bodies of the types come first, then their registration, the
internal types before the public ones, then the constructors of the classes, and the tests.

```text
define('<module>', ['<dependency>', …], function(<dependency>, …) {
  'use strict';

  <bodies>
  var $<module> = ss.module('<module>', <internal types>, <public types>);

  <constructors>
  <tests>

  return $<module>;
});
```
-/
namespace ScriptBackend.Script

/-- A step on the way to a module. -/
inductive Step where
  | op (o : Writer.Op)
  | call (c : Call)
  deriving DecidableEq, Repr

/-- The first line of a module. -/
def headerLine (moduleName : String) (dependencies : List String) : String :=
  "define('" ++ moduleName ++ "', [" ++
    ", ".intercalate (dependencies.map fun d => "'" ++ d ++ "'") ++ "], function(" ++
    ", ".intercalate dependencies ++ ") \x7b"

/-- The steps of the opening lines. -/
def opening (moduleName : String) (dependencies : List String) : List Step :=
  [.op (.write (headerLine moduleName dependencies)), .op .newLine, .op .indent,
    .op (.line "'use strict';"), .op .newLine]

/-- The steps that register one type. -/
def registrationEntry (t : TypeSymbol) : List Step :=
  [.op (.write (t.generatedName ++ ": ")), .call ⟨.registration, t⟩]

/-- The steps that register some types one after another.  Classes with global methods are left
out, and every entry but the first begins behind a comma. -/
def registrationEntries (first : Bool) : List TypeSymbol → List Step
  | [] => []
  | t :: types =>
    if t.kind.hasGlobalMethods then registrationEntries first types
    else
      (if first then [] else [.op (.line ",")]) ++ registrationEntry t ++
        registrationEntries false types

/-- The steps that register the types of one visibility.  Classes with global methods have no
entry, but make the list no empty one. -/
def registrationBucket (types : List TypeSymbol) : List Step :=
  if types.isEmpty then [.op (.write " null")]
  else
    [.op .newLine, .op .indent, .op (.line "\x7b"), .op .indent] ++
      registrationEntries true types ++
      [.op .outdent, .op .newLine, .op (.write "\x7d"), .op .outdent]

/-- The steps that register all types. -/
def registration (moduleName : String) (selection : Selection) : List Step :=
  [.op (.write ("var $" ++ moduleName ++ " = ss.module('" ++ moduleName ++ "',"))] ++
    registrationBucket selection.internalTypes ++ [.op (.write ",")] ++
    registrationBucket selection.publicTypes ++ [.op (.line ");"), .op .newLine]

/-- The steps of the closing lines. -/
def closing (moduleName : String) : List Step :=
  [.op .newLine, .op (.line ("return $" ++ moduleName ++ ";")), .op .outdent, .op (.line "\x7d);")]

/-- The steps that write one piece of each type. -/
def calls (piece : Piece) (types : List TypeSymbol) : List Step :=
  types.map fun t => .call ⟨piece, t⟩

/-- The steps of a whole module. -/
def outline (options : Options) (symbols : SymbolSet) : List Step :=
  let selection := symbols.selection options.includeTests
  opening symbols.scriptName symbols.dependencies ++
    calls .body selection.types ++
    registration symbols.scriptName selection ++
    calls .constructor (selection.types.filter (·.kind.isClass)) ++
    (if options.includeTests then calls .testScaffold (selection.types.filter (·.isTestClass))
      else []) ++
    closing symbols.scriptName

/-- What a generator has written so far, with the state of its emitter and the calls it has
made. -/
structure Session (σ : Type) where
  writer : Writer
  emitterState : σ
  calls : List Call := []

/-- Why a module could not be finished. -/
inductive Failure where
  /-- The writer refused an operation. -/
  | refused (refusal : Writer.Refusal)
  /-- The level at the end of the module is not that at its beginning. -/
  | unbalanced (moduleName : String) (now start : Nat)
  deriving DecidableEq, Repr

/-- The message of a failure. -/
def Failure.message : Failure → String
  | .refused refusal => refusal.message
  | .unbalanced moduleName now start =>
    "assertion `left == right` failed: unbalanced indentation after generating '" ++ moduleName ++
      "'\n  left: " ++ toString now ++ "\n right: " ++ toString start

namespace Session

variable {σ : Type}

/-- A session in which nothing is written yet. -/
def start (options : Options) (emitterState : σ) : Session σ :=
  { writer := { width := options.indentWidth }, emitterState }

/-- The session after a step, and why the writer did not take all of it, if so.  A call is on
record before the emitter answers. -/
def step (e : Emitter σ) (s : Session σ) : Step → Session σ × Option Writer.Refusal
  | .op o =>
    let (writer, refusal) := s.writer.perform o
    ({ s with writer }, refusal)
  | .call c =>
    let (ops, emitterState) := e.emit c s.writer s.emitterState
    let (writer, refusal) := s.writer.run ops
    ({ writer, emitterState, calls := s.calls ++ [c] }, refusal)

/-- The session after the steps up to the first that the writer refuses, and why it refuses
that one. -/
def follow (e : Emitter σ) (s : Session σ) : List Step → Session σ × Option Writer.Refusal
  | [] => (s, none)
  | st :: steps =>
    match s.step e st with
    | (next, none) => next.follow e steps
    | (next, some refusal) => (next, some refusal)

/-- The session after a module, and what went wrong if anything did.  What was written up to
then stays. -/
def generate (e : Emitter σ) (options : Options) (s : Session σ) (symbols : SymbolSet) :
    Session σ × Option Failure :=
  match s.follow e (outline options symbols) with
  | (next, some refusal) => (next, some (.refused refusal))
  | (next, none) =>
    if next.writer.level = s.writer.level then (next, none)
    else (next, some (.unbalanced symbols.scriptName next.writer.level s.writer.level))

end Session

end ScriptBackend.Script
