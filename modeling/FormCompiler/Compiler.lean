import FormCompiler.Frontend
import FormCompiler.Ir.Printer
import FormCompiler.Emit.ModuleForm

/-!
# From source text to the lines of a module

Reading and expansion stop at their first fault.  What checking finds and
what emission skips is collected instead, so that one run reports all of it;
only an error that ends the emission leaves no lines.
-/

namespace FormCompiler

/-- Reads, expands, checks and emits a module. -/
def compile (configuration : Configuration) (source : String) :
    Except Coverage.Fault Compilation :=
  (lintSource source).map fun compilation =>
    match compilation.expanded with
    | none => compilation
    | some expanded =>
        let emitted := emitted configuration expanded
        let found := compilation.diagnostics ++
          emitted.state.problems.map Problem.diagnostic
        match emitted.error with
        | none =>
            { compilation with
              lines := some emitted.state.module.lines
              diagnostics := found }
        | some error =>
            { compilation with diagnostics := found ++ [error.diagnostic] }

end FormCompiler
