import ScriptBackend.Reference.Source
import ScriptBackend.Script.Module

/-! # Compilation

A compilation loads its references, has the program analysed against them, and generates the
module of what the analysis finds.  Each stage runs only if the one before it succeeded.
-/
namespace ScriptBackend

open Script (Call Emitter Session)

/-- The analysis of a program: given the loaded references, it finds the symbols of the
program or fails, and reports errors. -/
structure Analyzer where
  analyze : ReferenceSource → Option SymbolSet × List Diagnostic

/-- Why a compilation gives no script. -/
inductive CompileFailure where
  | references (count : Nat)
  | analysis
  | generation (failure : Script.Failure)
  deriving DecidableEq, Repr

/-- The message of a failure. -/
def CompileFailure.message : CompileFailure → String
  | .references count => toString count ++ " error(s) while loading references"
  | .analysis => "semantic analysis failed"
  | .generation failure => failure.message

/-- What a compilation leaves behind. -/
structure Compilation (α : Type) where
  result : Except CompileFailure α
  /-- The references that the analysis was given, if it ran. -/
  analyzed : Option ReferenceSource := none
  /-- The calls to the emitter. -/
  calls : List Call := []
  diagnostics : Diagnostics

namespace Compilation

variable {σ : Type}

/-- Loads the references that the options name. -/
def loadReferences (options : Options) (disk : Disk) (diagnostics : Diagnostics) :
    Compilation ReferenceSource :=
  let loader := Loader.load disk { diagnostics } options.references
  { result :=
      if loader.source.failed then .error (.references loader.source.errors.length)
      else .ok loader.source
    diagnostics := loader.diagnostics }

/-- Generates the module of a program in a new session. -/
def generate (options : Options) (emitter : Emitter σ) (emitterState : σ) (symbols : SymbolSet)
    (diagnostics : Diagnostics) : Compilation String :=
  let (session, failure) := (Session.start options emitterState).generate emitter options symbols
  { result :=
      match failure with
      | none => .ok session.writer.output
      | some failure => .error (.generation failure)
    calls := session.calls
    diagnostics }

theorem generate_eq {options : Options} {emitter : Emitter σ} {emitterState : σ}
    {symbols : SymbolSet} {fresh : Session σ × Option Script.Failure}
    (h : (Session.start options emitterState).generate emitter options symbols = fresh)
    (diagnostics : Diagnostics) :
    generate options emitter emitterState symbols diagnostics =
      { result :=
          match fresh.2 with
          | none => .ok fresh.1.writer.output
          | some failure => .error (.generation failure)
        calls := fresh.1.calls
        diagnostics } := by
  rw [generate, h]

/-- Compiles a program. -/
def compile (options : Options) (disk : Disk) (analyzer : Analyzer) (emitter : Emitter σ)
    (emitterState : σ) (diagnostics : Diagnostics) : Compilation String :=
  let loaded := loadReferences options disk diagnostics
  match loaded.result with
  | .error failure => { result := .error failure, diagnostics := loaded.diagnostics }
  | .ok source =>
    let (symbols?, reports) := analyzer.analyze source
    let diagnostics := loaded.diagnostics.reportAll reports
    match symbols? with
    | none => { result := .error .analysis, analyzed := some source, diagnostics }
    | some symbols =>
      { generate options emitter emitterState symbols diagnostics with analyzed := some source }

end Compilation

end ScriptBackend
