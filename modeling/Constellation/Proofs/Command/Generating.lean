import Mathlib.Control.Monad.Basic
import Constellation.Proofs.Command.Runs
import Constellation.Proofs.Experiment.Generated
set_option autoImplicit false

/-!
# What generating runs does to the files

The description of the experiment, its runs and the template are checked first. Only then are the
outputs removed, and what is there in the end does not depend on them.

## Main definitions

* `Generate.materializerOf` — the template and the experiment directory that the arguments describe.
* `Generate.IsValid` — a generation has what it needs.

## Main results

* `Generate.run_command_of_not_isValid` — what is not valid changes nothing.
* `Generate.exists_of_run_command` — the steps of a generation that succeeds.
* `Generate.generates_exactly` — what is there after a generation.
* `Generate.generates_winding` — outputs stay if the path of the experiment directory goes through
  them.
-/

namespace Constellation

namespace Generate

variable {c : Console} {arguments : List String} {given : Arguments} {tree : FileTree}

/-- The template and the experiment directory that the arguments describe. -/
def materializerOf (given : Arguments) : Materializer :=
  let directory := given.pathOr "experiment-dir" "."
  ⟨directory.join (given.pathOr "template" standardTemplate), directory⟩

/-- A generation has what it needs: the description of the experiment can be loaded, it has runs,
and the template is a file. -/
def IsValid (given : Arguments) (tree : FileTree) : Prop :=
  ∃ e runs, (Experiment.ofArguments given).run (Command.start tree) =
      (.ok e, Command.start tree) ∧ e.runs = .ok runs ∧
    tree.isFile (materializerOf given).template = true

/-- A template is accepted if it is a file. -/
lemma run_ofTemplate (m : Materializer) (tree : FileTree) :
    (Materializer.ofTemplate m.template m.directory).run tree =
      (if tree.isFile m.template then .ok m else .error (.missing m.template), tree) := by
  show (if tree.isFile m.template then pure m else throw (.missing m.template) :
    Files TemplateFault Materializer).run tree = _
  split <;> rfl

/-- **What is not valid changes nothing.** -/
lemma run_command_of_not_isValid (hread : spec.read arguments = .ok given)
    (h : ¬ IsValid given tree) : ∃ stop c,
      (command arguments).run (Command.start tree) = (.error stop, c) ∧ c.tree = tree := by
  unfold command
  rw [Command.run_bind_ok Command.run_files, Command.run_bind_ok (Command.run_arguments hread)]
  have hsame := Experiment.console_ofArguments given (Command.start tree)
  rcases hload : (Experiment.ofArguments given).run (Command.start tree) with ⟨stop | e, c⟩
  · rw [hload] at hsame
    exact ⟨stop, c, Command.run_bind_error hload, congrArg Console.tree hsame⟩
  · rw [hload] at hsame
    obtain rfl : c = Command.start tree := hsame
    rw [Command.run_bind_ok hload]
    cases hruns : e.runs with
    | error fault =>
      have hstop : e.runsOrStop.run (Command.start tree) =
          (.error (fault.stop "invalid experiment configuration"), Command.start tree) := by
        rw [Experiment.runsOrStop, hruns]
        rfl
      exact ⟨_, _, Command.run_bind_error hstop, rfl⟩
    | ok runs =>
      have hexpand : e.runsOrStop.run (Command.start tree) = (.ok runs, Command.start tree) := by
        rw [Experiment.runsOrStop, hruns]
        rfl
      rw [Command.run_bind_ok hexpand]
      obtain ⟨printed, htell⟩ := Command.run_tell (LogRule.ofTree (Command.start tree).tree)
        logger _ (Command.start tree)
      dsimp only
      rw [Command.run_bind_ok htell]
      have hfile : tree.isFile (materializerOf given).template = false := by
        rw [← Bool.not_eq_true]
        exact fun hfile => h ⟨e, runs, hload, hruns, hfile⟩
      have hmissing := run_ofTemplate (materializerOf given) tree
      rw [hfile, if_neg Bool.false_ne_true] at hmissing
      exact ⟨_, _, Command.run_bind_error (Command.run_onFiles_error hmissing), rfl⟩

/-- **The steps of a generation that succeeds.** -/
lemma exists_of_run_command
    (h : (command arguments).run (Command.start tree) = (.ok (), c)) :
    ∃ given e runs cleared paths written after, spec.read arguments = .ok given ∧
      (Experiment.ofArguments given).run (Command.start tree) = (.ok e, Command.start tree) ∧
      e.runs = .ok runs ∧ tree.isFile (materializerOf given).template = true ∧
      (clearOutputs (materializerOf given).directory).run tree = (.ok (), cleared) ∧
      ((materializerOf given).materializeAll runs).run cleared = (.ok paths, written) ∧
      (Run.storeList (materializerOf given).listPath runs).run written = (.ok (), after) ∧
      c.tree = after := by
  unfold command at h
  rw [Command.run_bind_ok Command.run_files] at h
  obtain ⟨given, _, hgiven, h⟩ := Command.run_bind_eq_ok h
  obtain ⟨hread, rfl⟩ := Command.run_ofExcept_eq_ok hgiven
  obtain ⟨e, c₁, he, h⟩ := Command.run_bind_eq_ok h
  obtain rfl : c₁ = Command.start tree :=
    (congrArg Prod.snd he).symm.trans (Experiment.console_ofArguments given _)
  obtain ⟨runs, _, hruns, h⟩ := Command.run_bind_eq_ok h
  obtain ⟨hexpand, rfl⟩ := Command.run_ofExcept_eq_ok hruns
  obtain ⟨_, c₂, htell, h⟩ := Command.run_bind_eq_ok h
  obtain ⟨printed, htold⟩ := Command.run_tell (LogRule.ofTree (Command.start tree).tree) logger _
    (Command.start tree)
  rw [htold] at htell
  cases htell
  obtain ⟨m, _, haccept, h⟩ := Command.run_bind_eq_ok h
  obtain ⟨same, htemplate, rfl⟩ := Command.run_onFiles_eq_ok haccept
  have haccepted := (run_ofTemplate (materializerOf given) tree).symm.trans htemplate
  split at haccepted
  · next hfile =>
    obtain ⟨hm, rfl⟩ := Prod.mk.inj haccepted
    obtain rfl := Except.ok.inj hm
    obtain ⟨_, _, hfirst, h⟩ := Command.run_bind_eq_ok h
    obtain ⟨cleared, hclear, rfl⟩ := Command.run_onFiles_eq_ok hfirst
    obtain ⟨paths, _, hsecond, h⟩ := Command.run_bind_eq_ok h
    obtain ⟨written, hwrite, rfl⟩ := Command.run_onFiles_eq_ok hsecond
    obtain ⟨_, _, hthird, hprint⟩ := Command.run_bind_eq_ok h
    obtain ⟨after, hstore, rfl⟩ := Command.run_onFiles_eq_ok hthird
    cases hprint
    exact ⟨given, e, runs, cleared, paths, written, after, hread, he, hexpand, hfile, hclear,
      hwrite, hstore, rfl⟩
  · cases haccepted

/-- **What generating runs does.** If the arguments cannot be read, or a generation does not have
what it needs, nothing is changed. If it succeeds, and the path of the experiment directory does not
go through its outputs, there are the directories of the runs, each with its configuration file, and
the list of runs, but no other outputs, whatever was there before. All else is as before.

**Proof sketch.** Everything that is checked before the outputs are cleared only reads
(`run_command_of_not_isValid`). A generation that succeeds clears the outputs, writes the runs and
stores their list (`exists_of_run_command`), and what these steps do is known for each of them
(`Materializer.generated_of_run`). -/
theorem generates_exactly (hparents : tree.HasParents) (arguments : List String) :
    (∀ fault, spec.read arguments = .error fault → ∃ stop c,
      (command arguments).run (Command.start tree) = (.error stop, c) ∧ c.tree = tree) ∧
    ∀ given, spec.read arguments = .ok given →
      (¬ IsValid given tree → ∃ stop c,
        (command arguments).run (Command.start tree) = (.error stop, c) ∧ c.tree = tree) ∧
      (tree.isDirectory (materializerOf given).directory = true →
        AvoidsOutputs (materializerOf given).directory →
        ∀ c, (command arguments).run (Command.start tree) = (.ok (), c) →
          ∃ e runs, (Experiment.ofArguments given).run (Command.start tree) =
              (.ok e, Command.start tree) ∧
            e.runs = .ok runs ∧ (materializerOf given).Generated runs tree c.tree) := by
  refine ⟨fun fault hread => ?_, fun given hread => ⟨run_command_of_not_isValid hread, ?_⟩⟩
  · have hstop : ∃ stop, (spec.arguments arguments).run (Command.start tree) =
        (.error stop, Command.start tree) := by
      rw [CommandSpec.arguments, hread]
      exact ⟨_, rfl⟩
    obtain ⟨stop, hstop⟩ := hstop
    unfold command
    rw [Command.run_bind_ok Command.run_files]
    exact ⟨stop, _, Command.run_bind_error hstop, rfl⟩
  · intro hdirectory havoid c h
    obtain ⟨given', e, runs, cleared, paths, written, after, hread', he, hruns, hfile, hclear,
      hwrite, hstore, rfl⟩ := exists_of_run_command h
    obtain rfl : given = given' := Except.ok.inj (hread.symm.trans hread')
    obtain ⟨content, hentry⟩ := Materializer.exists_entryAt_of_ofTemplate
      ((run_ofTemplate (materializerOf given) tree).trans (by rw [hfile, if_pos rfl]))
    exact ⟨e, runs, he, hruns, Materializer.generated_of_run
      (fun run hrun => Experiment.isPlain_name hruns hrun) (Experiment.nodup_name hruns)
      (fun run hrun => Experiment.name_ne_listFile hruns hrun) havoid hparents hdirectory
      hentry hclear hwrite hstore⟩

/-- An experiment directory in which runs have been generated before. -/
def generatedBefore : FileTree :=
  .ofList [
    (["c.json"], .file Experiment.singleText.toUTF8),
    (["e"], .directory), (["e", "t.txt"], .file "a=[FROM-ID]\n".toUTF8),
    (["e", "runs"], .directory), (["e", "pdf"], .directory),
    (["e", "pdf", "old.pdf"], .file "x".toUTF8)]

/-- Each entry of this tree is in a directory. -/
lemma hasParents_generatedBefore : generatedBefore.HasParents := by
  apply FileTree.hasParents_of_entries
  rw [generatedBefore, FileTree.ofList]
  simp only [List.map_cons, List.map_nil, List.forall_mem_cons]
  exact ⟨Or.inr rfl, Or.inr rfl, Or.inr rfl, Or.inr rfl, Or.inr rfl, Or.inr rfl, by simp⟩

/-- **A path through the outputs lets them stay.** After the directory for runs has been removed the
path leads nowhere, so nothing else is found to be removed. -/
theorem generates_winding : ∃ c,
    generatedBefore.HasParents ∧ generatedBefore.isDirectory ⟨"e/runs/.."⟩ = true ∧
    (command ["-c", "c.json", "-e", "e/runs/..", "-t", "t.txt"]).run
      (Command.start generatedBefore) = (.ok (), c) ∧
    c.tree.lookUp ["e", "pdf", "old.pdf"] ≠ none := by
  have hrun : ((command ["-c", "c.json", "-e", "e/runs/..", "-t", "t.txt"]).run
        (Command.start generatedBefore)).1 = .ok () ∧
      (((command ["-c", "c.json", "-e", "e/runs/..", "-t", "t.txt"]).run
        (Command.start generatedBefore)).2.tree.lookUp ["e", "pdf", "old.pdf"]).isSome = true := by
    decide +kernel
  obtain ⟨hok, hstays⟩ := hrun
  obtain ⟨c, hrun⟩ := Command.exists_run_of_fst hok
  rw [hrun] at hstays
  exact ⟨c, hasParents_generatedBefore, by decide +kernel, hrun,
    Option.isSome_iff_ne_none.mp hstays⟩

/-- A generation in the same directory by its short path. -/
theorem generates_exactly_again : ∃ c runs, generatedBefore.HasParents ∧
    (command ["-c", "c.json", "-e", "e", "-t", "t.txt"]).run (Command.start generatedBefore) =
      (.ok (), c) ∧
    (⟨⟨"e/t.txt"⟩, ⟨"e"⟩⟩ : Materializer).Generated runs generatedBefore c.tree := by
  have hok : ((command ["-c", "c.json", "-e", "e", "-t", "t.txt"]).run
      (Command.start generatedBefore)).1 = .ok () := by
    decide +kernel
  obtain ⟨c, hrun⟩ := Command.exists_run_of_fst hok
  have hread : spec.read ["-c", "c.json", "-e", "e", "-t", "t.txt"] =
      .ok ⟨[("config", "c.json"), ("experiment-dir", "e"), ("template", "t.txt")], []⟩ := by
    decide +kernel
  have havoid : AvoidsOutputs ⟨"e"⟩ := avoidsOutputs_of_forall_ne (by decide +kernel)
  obtain ⟨-, hgenerates⟩ := (generates_exactly hasParents_generatedBefore
    ["-c", "c.json", "-e", "e", "-t", "t.txt"]).2 _ hread
  obtain ⟨e, runs, -, -, hgenerated⟩ := hgenerates (by decide +kernel) havoid c hrun
  exact ⟨c, runs, hasParents_generatedBefore, hrun, hgenerated⟩

end Generate

end Constellation
