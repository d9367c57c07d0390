import Constellation.Proofs.Experiment.Places
import Constellation.Session.Job
set_option autoImplicit false

/-!
# Nothing breaks out of its shell argument

A shell reads a line word by word. Whatever a path contains, its quoted text is read as one word
that is the path, and the argument for a run is one word in which nothing is expanded.

## Main definitions

* `Shell.Letter` — a character of a word with the way in which it is quoted.
* `Shell.step` — what one character does to the state of quoting.
* `Shell.word?` — the word at the start of a text, and what follows it.
* `Shell.Letter.isActive` — whether a character starts an expansion where it stands.

## Main results

* `Shell.word?_shellQuote` — a quoted text is read as one word.
* `Shell.word?_runArgument` — so is the argument for a run with a safe name.
* `Shell.words_contained` — paths and names stay inside of their words.

## Design

The reader takes one character after the other, and its state says how the next one is quoted. A
character between single quotes and one after a backslash are both literal; between double quotes a
backslash is only special in front of a few characters, and expansions go on. A word ends at a
blank, at the end of a line, or at an operator outside of quotes. A word whose quotes are not closed
is none.
-/

namespace Constellation

namespace Shell

/-- How a character of a word is quoted. -/
inductive Quotation
  /-- It stands outside of quotes. -/
  | bare
  /-- It stands between double quotes. -/
  | double
  /-- It stands between single quotes or after a backslash. -/
  | literal
  deriving DecidableEq, Repr

/-- A character of a word with the way in which it is quoted. -/
structure Letter where
  /-- The character. -/
  char : Char
  /-- How it is quoted. -/
  quotation : Quotation
  deriving DecidableEq, Repr

/-- Whether a shell expands something at a character: a variable, a command, an event of the
history, a pattern for file names, a list in braces, or a home directory. -/
def Letter.isActive (letter : Letter) : Bool :=
  match letter.quotation with
  | .bare => ['$', '\x60', '!', '*', '?', '[', '{', '~'].contains letter.char
  | .double => ['$', '\x60', '!'].contains letter.char
  | .literal => false

/-- How the next character is read. -/
inductive State
  /-- Outside of quotes. -/
  | bare
  /-- Outside of quotes, after a backslash. -/
  | escaped
  /-- Between single quotes. -/
  | single
  /-- Between double quotes. -/
  | double
  /-- Between double quotes, after a backslash. -/
  | doubleEscaped
  deriving DecidableEq, Repr

/-- Whether a character ends a word: a blank, the end of a line, or the start of an operator. -/
def endsWord (c : Char) : Bool :=
  [' ', '\t', '\n', ';', '|', '&', '<', '>', '(', ')'].contains c

/-- The letters that one character adds to a word, and the state after it. The outcome `none` is
that the word ends in front of it. A backslash takes the end of a line away. -/
def step : State → Char → Option (List Letter × State)
  | .bare, c =>
    if c = '\'' then some ([], .single)
    else if c = '"' then some ([], .double)
    else if c = '\\' then some ([], .escaped)
    else if endsWord c then none
    else some ([⟨c, .bare⟩], .bare)
  | .escaped, c => some (if c = '\n' then [] else [⟨c, .literal⟩], .bare)
  | .single, c => some (if c = '\'' then ([], .bare) else ([⟨c, .literal⟩], .single))
  | .double, c =>
    some (if c = '"' then ([], .bare)
      else if c = '\\' then ([], .doubleEscaped)
      else ([⟨c, .double⟩], .double))
  | .doubleEscaped, c =>
    some (if c = '\n' then []
      else if ['$', '\x60', '"', '\\'].contains c then [⟨c, .literal⟩]
      else [⟨'\\', .literal⟩, ⟨c, .double⟩], .double)

/-- Puts letters in front of a word that has been read. -/
def prepend (letters : List Letter) (read : Option (List Letter × List Char)) :
    Option (List Letter × List Char) := read.map (Prod.map (letters ++ ·) id)

/-- The rest of a word that is read in some state, and what follows the word. -/
def readWord : State → List Char → Option (List Letter × List Char)
  | state, [] => if state = .bare then some ([], []) else none
  | state, c :: rest =>
    match step state c with
    | none => some ([], c :: rest)
    | some (letters, next) => prepend letters (readWord next rest)

/-- The word at the start of a text, and what follows it. There is none at the end of a line, at an
operator or in front of a comment, and none whose quotes are not closed. -/
def word? : List Char → Option (List Letter × List Char)
  | [] => none
  | '\\' :: '\n' :: rest => word? rest
  | c :: rest => if endsWord c || c = '#' then none else readWord .bare (c :: rest)

/-- A text whose characters are all quoted in the same way. -/
def spell (quotation : Quotation) (text : List Char) : List Letter := text.map (⟨·, quotation⟩)

/-- Where a word ends: at the end of the text, or in front of what ends words. -/
def Ends (text : List Char) : Prop := ∀ c ∈ text.head?, endsWord c = true

variable {state : State} {quotation : Quotation} {text rest : List Char}

/-! ## Reading a word -/

/-- No letters change nothing. -/
@[simp] lemma prepend_nil (read : Option (List Letter × List Char)) : prepend [] read = read := by
  cases read <;> rfl

/-- Letters are put in front one after the other. -/
@[simp] lemma prepend_prepend (letters more : List Letter)
    (read : Option (List Letter × List Char)) :
    prepend letters (prepend more read) = prepend (letters ++ more) read := by
  rcases read with _ | ⟨word, rest⟩ <;> simp [prepend]

/-- Letters are put in front of the word and not of what follows it. -/
@[simp] lemma prepend_some (letters word : List Letter) (rest : List Char) :
    prepend letters (some (word, rest)) = some (letters ++ word, rest) := rfl

/-- A word ends where it has to. -/
lemma readWord_of_ends (h : Ends rest) : readWord .bare rest = some ([], rest) := by
  cases rest with
  | nil => rfl
  | cons c rest =>
    have hc : endsWord c = true := h c rfl
    have hstep : step .bare c = none := by
      rw [step, if_neg, if_neg, if_neg, if_pos hc] <;>
      · rintro rfl
        exact absurd hc (by decide)
    rw [readWord, hstep]

/-- **Characters that keep the state are read one by one.** -/
lemma readWord_append (h : ∀ c ∈ text, step state c = some ([⟨c, quotation⟩], state))
    (rest : List Char) :
    readWord state (text ++ rest) = prepend (spell quotation text) (readWord state rest) := by
  induction text with
  | nil => simp [spell]
  | cons c text ih =>
    rw [List.cons_append, readWord, h c List.mem_cons_self]
    simp only [ih fun d hd => h d (List.mem_cons_of_mem c hd), prepend_prepend]
    rfl

/-- An escaped character is read as it is, and the quotes are open again after it. -/
lemma readWord_shellEscape (c : Char) (rest : List Char) :
    readWord .single (shellEscape c ++ rest) =
      prepend [⟨c, .literal⟩] (readWord .single rest) := by
  rw [shellEscape]
  split
  · -- the quote is closed, a literal quote is added, and the quote is opened again
    next hquote =>
    subst hquote
    simp [readWord, step]
  · next hquote => simp [readWord, step, hquote]

/-- **A quoted text is read as one word**, whatever it contains.

**Proof sketch.** Induction on the text. Between two characters of it the state is always that
between single quotes, since the escape of a quote opens them again. -/
lemma word?_shellQuote (text : String) (h : Ends rest) :
    word? ((shellQuote text).toList ++ rest) = some (spell .literal text.toList, rest) := by
  have hread : ∀ cs : List Char, readWord .single (cs.flatMap shellEscape ++ '\'' :: rest) =
      some (spell .literal cs, rest) := by
    intro cs
    induction cs with
    | nil => simp [readWord, step, readWord_of_ends h, spell]
    | cons c cs ih =>
      rw [List.flatMap_cons, List.append_assoc, readWord_shellEscape, ih]
      rfl
  have hopen := hread text.toList
  rw [shellQuote, String.toList_ofList, List.cons_append, List.cons_append, List.append_assoc]
  simp [word?, endsWord, readWord, step, hopen]

/-! ## The argument for a run -/

/-- What stands between the quotes of the argument for a run. -/
def runCommand (run : Run) : List Char :=
  run.client.program.toList ++ " --run_dir='".toList ++ run.name.toList ++ ['\'']

/-- The argument for a run is made of an option and a quoted command. -/
lemma toList_runArgument (run : Run) : (JobLayout.runArgument run).toList =
    "--run=".toList ++ '"' :: (runCommand run ++ ['"']) := by
  simp [JobLayout.runArgument, runCommand, toString]

/-- The characters that are special between double quotes. -/
def specials : List Char := ['"', '\\', '$', '\x60', '!']

/-- A command for a run with a safe name has none of them. -/
lemma notMem_specials_of_mem_runCommand {run : Run} (h : isSafeName run.name = true) {c : Char}
    (hc : c ∈ runCommand run) : c ∉ specials := by
  have hprogram : ∀ client : Client, ∀ d ∈ specials, d ∉ client.program.toList := by
    intro client
    cases client <;> simp [specials, Client.program]
  have hoption : ∀ d ∈ specials, d ∉ " --run_dir='".toList := by simp [specials]
  have hforbidden : specials.all (fun d => !isSafeChar d) = true := by decide
  rw [isSafeName, Bool.and_eq_true, List.all_eq_true] at h
  intro hspecial
  simp only [runCommand, List.mem_append, List.mem_singleton] at hc
  rcases hc with ((hc | hc) | hc) | rfl
  · exact hprogram run.client c hspecial hc
  · exact hoption c hspecial hc
  · have := List.all_eq_true.mp hforbidden c hspecial
    simp [h.2 c hc] at this
  · exact absurd hspecial (by decide)

/-- **The argument for a run is read as one word** in which nothing is expanded. -/
lemma word?_runArgument {run : Run} (h : isSafeName run.name = true) (hrest : Ends rest) :
    ∃ word, word? ((JobLayout.runArgument run).toList ++ rest) = some (word, rest) ∧
      word.map Letter.char = s!"--run={run.client.program} --run_dir='{run.name}'".toList ∧
        ∀ letter ∈ word, letter.isActive = false := by
  have hbare : ∀ c ∈ "--run=".toList, step .bare c = some ([⟨c, .bare⟩], .bare) := by
    simp [step, endsWord]
  have hinactive : ∀ letter ∈ spell .bare "--run=".toList, letter.isActive = false :=
    fun letter h => by
      simpa using List.all_eq_true.mp
        (show (spell .bare "--run=".toList).all (fun letter => !letter.isActive) = true by decide)
        letter h
  have hdouble : ∀ c ∈ runCommand run, step .double c = some ([⟨c, .double⟩], .double) := by
    intro c hc
    have hne := notMem_specials_of_mem_runCommand h hc
    simp only [specials, List.mem_cons, not_or] at hne
    rw [step, if_neg hne.1, if_neg hne.2.1]
  have hclosed : readWord .double ('"' :: rest) = some ([], rest) := by
    rw [readWord]
    simp [step, readWord_of_ends hrest]
  have hquoted : readWord .bare ('"' :: (runCommand run ++ '"' :: rest)) =
      some (spell .double (runCommand run), rest) := by
    rw [readWord]
    simp [step, readWord_append hdouble, hclosed]
  refine ⟨spell .bare "--run=".toList ++ spell .double (runCommand run), ?_, ?_, ?_⟩
  · have hread := readWord_append hbare ('"' :: (runCommand run ++ '"' :: rest))
    rw [hquoted, prepend_some] at hread
    rw [toList_runArgument, List.append_assoc, List.cons_append, List.append_assoc,
      List.singleton_append, ← hread]
    rfl
  · simp [spell, runCommand, toString, Function.comp_def]
  · intro letter hletter
    rcases List.mem_append.mp hletter with hmem | hmem
    · exact hinactive letter hmem
    · obtain ⟨c, hc, rfl⟩ := List.mem_map.mp hmem
      have hne := notMem_specials_of_mem_runCommand h hc
      simp only [specials, List.mem_cons, not_or] at hne
      simp [Letter.isActive, hne]

/-! ## Lines -/

/-- A line of a job goes to a quoted directory and ends in a quoted file. -/
lemma toList_shellLine (job : Job) : job.shellLine.toList =
    "cd ".toList ++ ((shellQuote job.workingDirectory.text).toList ++
      (s!"; {job.command} 2>&1 | tee ".toList ++ (shellQuote job.logPath.text).toList)) := by
  simp [Job.shellLine, toString]

/-- **Nothing breaks out of its shell argument.** A quoted text is read as one word that is the
text, so the line of a job changes into just its working directory and copies to just its log file,
whatever characters their paths have. The name of a run consists of letters, digits and `_-.+`, is a
single step of a path, and the argument that is put after the build command is read as one word in
which nothing is expanded.

**Proof sketch.** Between two characters of a quoted text the reader is between single quotes
(`word?_shellQuote`). A name is made of a checked topology, of numbers, of fixed names and of a
checked loss ratio, so none of its characters is special between double quotes
(`notMem_specials_of_mem_runCommand`). -/
theorem words_contained :
    (∀ (text : String) (rest : List Char), Ends rest →
      word? ((shellQuote text).toList ++ rest) = some (spell .literal text.toList, rest)) ∧
    (∀ job : Job, ∃ line last, job.shellLine.toList = "cd ".toList ++ line ∧
      word? line = some (spell .literal job.workingDirectory.chars,
        s!"; {job.command} 2>&1 | tee ".toList ++ last) ∧
      word? last = some (spell .literal job.logPath.chars, [])) ∧
    ∀ (e : Experiment) (runs : List Run), e.runs = .ok runs → ∀ run ∈ runs,
      (∀ c ∈ run.name.toList, c.isAlphanum = true ∨ c ∈ ['_', '-', '.', '+']) ∧
      FileTree.IsPlain run.name ∧ Path.names ⟨run.name⟩ = [run.name.toList] ∧
      ∀ layout : JobLayout, ∃ argument word,
        (layout.job run).command.toList = layout.buildCommand.toList ++ ' ' :: argument ∧
        word? argument = some (word, []) ∧
        word.map Letter.char = s!"--run={run.client.program} --run_dir='{run.name}'".toList ∧
        ∀ letter ∈ word, letter.isActive = false := by
  refine ⟨fun text rest h => word?_shellQuote text h, fun job => ?_,
    fun e runs hruns run hrun => ?_⟩
  · refine ⟨_, _, toList_shellLine job, word?_shellQuote _ ?_, ?_⟩
    · simp [Ends, endsWord, toString]
    · have hlast := @word?_shellQuote [] job.logPath.text (by simp [Ends])
      rwa [List.append_nil] at hlast
  · obtain ⟨hsafe, -⟩ := Experiment.isSafe_name hruns hrun
    have hplain := Experiment.isPlain_name hruns hrun
    refine ⟨fun c hc => ?_, hplain, ?_, fun layout => ?_⟩
    · rw [isSafeName, Bool.and_eq_true, List.all_eq_true] at hsafe
      simpa [isSafeChar, or_assoc] using hsafe.2 c hc
    · rw [Path.names_piece hplain.slash, if_neg hplain.nonempty]
    · obtain ⟨word, hword, hchars, hactive⟩ :=
        @word?_runArgument [] run hsafe (by simp [Ends])
      rw [List.append_nil] at hword
      exact ⟨_, word, by simp [JobLayout.job, Job.new, toString], hword, hchars, hactive⟩

/-- A text with every kind of special character in front of a command, and the runs of an experiment
with a topology that is named like a run. -/
theorem words_contained_confusing :
    Ends "; ls".toList ∧
    word? ((shellQuote "it's \"$HOME\" \\ * ;\n").toList ++ "; ls".toList) =
      some (spell .literal "it's \"$HOME\" \\ * ;\n".toList, "; ls".toList) ∧
    ∃ runs, Experiment.confusing.runs = .ok runs ∧ runs.length = 2 ∧ ∀ run ∈ runs,
      FileTree.IsPlain run.name ∧ ∃ argument word,
        (JobLayout.job ⟨⟨"."⟩, ⟨"e"⟩, "make"⟩ run).command.toList =
          "make".toList ++ ' ' :: argument ∧
        word? argument = some (word, []) ∧ ∀ letter ∈ word, letter.isActive = false := by
  have hends : Ends "; ls".toList := by simp [Ends, endsWord]
  have hlength : Experiment.confusing.runs.toOption.map List.length = some 2 := by decide +kernel
  refine ⟨hends, words_contained.1 _ _ hends, ?_⟩
  cases hruns : Experiment.confusing.runs with
  | error fault =>
    rw [hruns] at hlength
    cases hlength
  | ok runs =>
    rw [hruns] at hlength
    refine ⟨runs, rfl, Option.some.inj hlength, fun run hrun => ?_⟩
    obtain ⟨-, hplain, -, hjob⟩ := words_contained.2.2 _ runs hruns run hrun
    obtain ⟨argument, word, hcommand, hword, -, hactive⟩ := hjob ⟨⟨"."⟩, ⟨"e"⟩, "make"⟩
    exact ⟨hplain, argument, word, hcommand, hword, hactive⟩

end Shell

end Constellation
