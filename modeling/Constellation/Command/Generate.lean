import Constellation.Command.Console
set_option autoImplicit false

/-!
# Generating runs

The command expands the description of an experiment, writes a configuration file for each run,
and stores the list of runs.

## Main definitions

* `Generate.command` — the command.

## Design

The description, its expansion and the template are checked before anything is removed.
-/

namespace Constellation

namespace Generate

/-- The arguments of the command. -/
def spec : CommandSpec where
  options := [.path "config" (some 'c'), .path "experiment-dir" (some 'e'),
    .path "template" (some 't'), .help]
  positionals := 0
  acceptsPositional := fun _ => false

/-- The template that is used unless another one is given. -/
def standardTemplate : String := "templates/template_ndn_a_b_config_ns3.properties"

/-- The logger of the command. -/
def logger : String := "generate_runs"

/-- The command. -/
def command (arguments : List String) : Command Unit := do
  let rule := LogRule.ofTree (← Command.files)
  let given ← spec.arguments arguments
  let experiment ← Experiment.ofArguments given
  let runs ← experiment.runsOrStop
  let directory := given.pathOr "experiment-dir" "."
  Command.tell rule logger
    [⟨.info, s!"Generating {runs.length} runs in {Quoted.ofText directory.text}"⟩]
  let stop (fault : TemplateFault) : Stop := fault.failure.stop
  let template := directory.join (given.pathOr "template" standardTemplate)
  let materializer ← Command.onFiles stop (Materializer.ofTemplate template directory)
  Command.onFiles stop (clearOutputs directory)
  let _ ← Command.onFiles stop (materializer.materializeAll runs)
  let list := (directory.join Run.runsDirectory).join Run.listFile
  Command.onFiles (ExperimentFault.stop s!"cannot write the run list {Quoted.ofText list.text}")
    (Run.storeList list runs)
  Command.printLine "Success: generated runs"

end Generate

end Constellation
