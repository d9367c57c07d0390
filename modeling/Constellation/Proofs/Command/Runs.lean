import Constellation.Command.All
import Constellation.Proofs.Experiment.Storing
set_option autoImplicit false

/-!
# What a command does as it runs

A command is put together of parts, each of which changes its console or stops it. This module says
what each kind of part does, so that a whole command can be followed without opening its parts.

## Main definitions

* `Command.printout` — the text that lines are printed as.
* `Experiment.singleText` — a description of an experiment with a single run.

## Main results

* `Command.run_bind_ok`, `Command.run_bind_error` — a command goes on after its first part, or
  stops with it.
* `Command.run_bind_eq_ok`, `Command.run_bind_eq_error` — a command comes to its end with all of its
  parts, and stops in one of them.
* `Command.run_onFiles_eq_ok`, `Command.run_onFiles_eq_error` — how an operation on files has ended.
* `Command.printed_onFiles` — an operation on files prints nothing.
* `Command.printed_outcome`, `Command.code_outcome_of_ok`, `Command.code_outcome_of_error` — what is
  seen of a command.
* `Experiment.console_ofArguments` — loading the description of an experiment changes nothing.
* `Command.run_printLines` — lines are printed after what was printed before.
-/

namespace Constellation

namespace Command

variable {ε α β : Type} {c c' : Console}

/-! ## Parts in sequence -/

/-- **After a part that succeeds the command goes on** with its result. -/
lemma run_bind_ok {x : Command α} {f : α → Command β} {a : α} (h : x.run c = (.ok a, c')) :
    (x >>= f).run c = (f a).run c' := by
  show ExceptT.bindCont f (x.run c).1 (x.run c).2 = _
  rw [h]
  rfl

/-- **With a part that stops the whole command stops**, and leaves the console as it is. -/
lemma run_bind_error {x : Command α} {f : α → Command β} {stop : Stop}
    (h : x.run c = (.error stop, c')) : (x >>= f).run c = (.error stop, c') := by
  show ExceptT.bindCont f (x.run c).1 (x.run c).2 = _
  rw [h]
  rfl

/-- **A command stops** in its first part or after it. -/
lemma run_bind_eq_error {x : Command α} {f : α → Command β} {stop : Stop}
    (h : (x >>= f).run c = (.error stop, c')) : x.run c = (.error stop, c') ∨
      ∃ a middle, x.run c = (.ok a, middle) ∧ (f a).run middle = (.error stop, c') := by
  rcases hx : x.run c with ⟨stop' | a, middle⟩
  · rw [run_bind_error hx] at h
    cases h
    exact Or.inl rfl
  · rw [run_bind_ok hx] at h
    exact Or.inr ⟨a, middle, rfl, h⟩

/-- **A command comes to its end** only if each of its parts does. -/
lemma run_bind_eq_ok {x : Command α} {f : α → Command β} {b : β}
    (h : (x >>= f).run c = (.ok b, c')) :
    ∃ a middle, x.run c = (.ok a, middle) ∧ (f a).run middle = (.ok b, c') := by
  rcases hx : x.run c with ⟨stop | a, middle⟩
  · rw [run_bind_error hx] at h
    cases h
  · rw [run_bind_ok hx] at h
    exact ⟨a, middle, rfl, h⟩

/-- Dropping the result of a part does not change what it does. -/
lemma console_bind_pure (x : Command α) (b : β) :
    ((x >>= fun _ => pure b).run c).2 = (x.run c).2 := by
  show (ExceptT.bindCont (m := StateM Console) (fun _ => pure b) (x.run c).1 (x.run c).2).2 = _
  cases (x.run c).1 with
  | error stop => rfl
  | ok a => rfl

/-- A command that ends in some way leaves some console. -/
lemma exists_run_of_fst {command : Command α} {result : Except Stop α}
    (h : (command.run c).1 = result) : ∃ c', command.run c = (result, c') :=
  ⟨(command.run c).2, Prod.ext h rfl⟩

/-! ## Single parts -/

/-- The files are looked at without any change. -/
lemma run_files : files.run c = (.ok c.tree, c) := rfl

/-- Arguments that can be read are read. -/
lemma run_arguments {spec : CommandSpec} {arguments : List String} {given : Arguments}
    (h : spec.read arguments = .ok given) : (spec.arguments arguments).run c = (.ok given, c) := by
  rw [CommandSpec.arguments, h]
  rfl

/-- A value is taken. -/
lemma run_ofExcept_ok (stop : ε → Stop) (a : α) (c : Console) :
    (ofExcept stop (.ok a)).run c = (.ok a, c) := rfl

/-- A fault is the reason to stop. -/
lemma run_ofExcept_error (stop : ε → Stop) (fault : ε) (c : Console) :
    (ofExcept (α := α) stop (.error fault)).run c = (.error (stop fault), c) := rfl

/-- An operation on files changes the files only. -/
lemma run_onFiles (stop : ε → Stop) (action : Files ε α) (c : Console) :
    (onFiles stop action).run c =
      ((action.run c.tree).1.mapError stop, { c with tree := (action.run c.tree).2 }) := by
  show (ofExcept stop (action.run c.tree).1).run { c with tree := (action.run c.tree).2 } = _
  cases (action.run c.tree).1 <;> rfl

/-- **A value was there** if it has been taken. -/
lemma run_ofExcept_eq_ok {stop : ε → Stop} {x : Except ε α} {a : α}
    (h : (ofExcept stop x).run c = (.ok a, c')) : x = .ok a ∧ c' = c := by
  cases x <;> cases h
  exact ⟨rfl, rfl⟩

/-- **A fault was there** if it is the reason to stop. -/
lemma run_ofExcept_eq_error {stop : ε → Stop} {x : Except ε α} {s : Stop}
    (h : (ofExcept stop x).run c = (.error s, c')) :
    ∃ fault, x = .error fault ∧ s = stop fault ∧ c' = c := by
  cases x <;> cases h
  exact ⟨_, rfl, rfl, rfl⟩

/-- An operation on files that fails stops the command. -/
lemma run_onFiles_error {stop : ε → Stop} {action : Files ε α} {fault : ε} {tree : FileTree}
    (h : action.run c.tree = (.error fault, tree)) :
    (onFiles stop action).run c = (.error (stop fault), { c with tree }) := by
  rw [run_onFiles, h]
  rfl

/-- **An operation on files has succeeded** if the command goes on. -/
lemma run_onFiles_eq_ok {stop : ε → Stop} {action : Files ε α} {a : α}
    (h : (onFiles stop action).run c = (.ok a, c')) :
    ∃ tree, action.run c.tree = (.ok a, tree) ∧ c' = { c with tree } := by
  rw [run_onFiles] at h
  rcases hrun : action.run c.tree with ⟨_ | _, tree⟩ <;> rw [hrun] at h <;> cases h
  exact ⟨tree, rfl, rfl⟩

/-- **An operation on files has failed** if it is the reason to stop. -/
lemma run_onFiles_eq_error {stop : ε → Stop} {action : Files ε α} {s : Stop}
    (h : (onFiles stop action).run c = (.error s, c')) :
    ∃ fault tree, action.run c.tree = (.error fault, tree) ∧ s = stop fault ∧
      c' = { c with tree } := by
  rw [run_onFiles] at h
  rcases hrun : action.run c.tree with ⟨_ | _, tree⟩ <;> rw [hrun] at h <;> cases h
  exact ⟨_, tree, rfl, rfl, rfl⟩

/-- An operation on files prints nothing. -/
lemma printed_onFiles (stop : ε → Stop) (action : Files ε α) :
    ((onFiles stop action).run c).2.printed = c.printed := by
  rw [run_onFiles]

/-- Telling the log prints, and nothing else. -/
lemma run_tell (rule : Option LogRule) (logger : String) (notices : List Notice) (c : Console) :
    ∃ printed, (tell rule logger notices).run c = (.ok (), { c with printed }) := by
  induction notices generalizing c with
  | nil => exact ⟨c.printed, rfl⟩
  | cons notice notices ih =>
    cases rule with
    | none => exact ih c
    | some rule =>
      rw [tell]
      by_cases hshows : rule.shows logger notice = true
      · rw [if_pos hshows]
        exact ih _
      · rw [if_neg hshows]
        exact ih c

/-- The text that lines are printed as. -/
def printout (lines : List String) : String :=
  lines.foldr (fun line rest => line ++ "\n" ++ rest) ""

/-- Lines are not printed as nothing. -/
lemma printout_ne_empty {lines : List String} (h : lines ≠ []) : printout lines ≠ "" := by
  obtain ⟨line, rest, rfl⟩ := List.exists_cons_of_ne_nil h
  intro heq
  have hlength := congrArg String.length heq
  simp [printout] at hlength

/-- Lines are printed after what was printed before. -/
lemma run_printLines (lines : List String) (c : Console) :
    (printLines lines).run c = (.ok (), { c with printed := c.printed ++ printout lines }) := by
  induction lines generalizing c with
  | nil =>
    show (Except.ok (), c) = _
    rw [printout, List.foldr_nil, String.append_empty]
  | cons line rest ih =>
    rw [printLines]
    have hline : (printLine line).run c =
        (.ok (), { c with printed := c.printed ++ (line ++ "\n") }) := rfl
    rw [run_bind_ok hline, ih]
    simp only [printout, List.foldr_cons, String.append_assoc]

/-! ## What is seen of a command -/

/-- What a command has printed is seen, however it ends. -/
lemma printed_outcome (command : Command Unit) (tree : FileTree) :
    (command.outcome tree).console.printed = (command.run (start tree)).2.printed := by
  rw [outcome]
  rcases command.run (start tree) with ⟨_ | _, c⟩
  · next stop => cases stop <;> rfl
  · rfl

/-- A command that comes to its end has the code zero. -/
lemma code_outcome_of_ok {command : Command Unit} {tree : FileTree}
    (h : command.run (start tree) = (.ok (), c)) : (command.outcome tree).code = 0 := by
  rw [outcome, h]

/-- The code of a command that stops says why. -/
lemma code_outcome_of_error {command : Command Unit} {tree : FileTree} {stop : Stop}
    (h : command.run (start tree) = (.error stop, c)) :
    (command.outcome tree).code = stop.code := by
  rw [outcome, h]
  cases stop <;> rfl

end Command

/-- A description of an experiment with a single run, as it may be given to a command. -/
def Experiment.singleText : String :=
  "\x7b\"topologies\": [\x7b\"name\": \"t\", \"satellite_networks\": \x7b\"paired\": \"n\"\x7d\x7d], " ++
    "\"pairs\": [\x7b\"from\": 1, \"to\": 2\x7d], \"clients\": [\"Ping\"], \"loss_ratios\": []\x7d"

/-- Loading the description of an experiment changes nothing. -/
lemma Experiment.console_ofArguments (given : Arguments) (c : Console) :
    ((Experiment.ofArguments given).run c).2 = c := by
  unfold Experiment.ofArguments
  split
  · rfl
  · rw [Command.run_onFiles, Experiment.load, tree_run_loadAs]

end Constellation
