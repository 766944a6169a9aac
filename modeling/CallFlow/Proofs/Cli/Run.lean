import CallFlow.Cli.Run
import CallFlow.Proofs.Diagram.Build
import CallFlow.Proofs.Diagram.Writer
import CallFlow.Proofs.Files.Buffer

/-!
This module contains what a run does to the files of a tree and what it shows (`runFrom_fileEffects`). How
sources, command lines and log filters are read does not matter for this.
-/

namespace CallFlow.Cli

open CallFlow.Text CallFlow.Functions CallFlow.Diagram CallFlow.Log CallFlow.Files
open CallFlow.Syntax (Node ParseError)

/--
What is shown for a command line that asks for nothing else.
-/
inductive Stop.Shows : Stop → String → Prop where
  | longHelp : Shows .longHelp Cli.longHelp
  | shortHelp : Shows .shortHelp Cli.shortHelp
  | version : Shows .version versionText

theorem Stop.Shows.ne_empty {stop : Stop} {text : String} (h : stop.Shows text) : text ≠ "" := by
  cases h with
  | longHelp => decide +kernel
  | shortHelp => decide +kernel
  | version => decide +kernel

variable (parser : String → Syntax.Tree) (readArgs : List RawText → Except Stop Options)
  (readFilter : String → Except FilterError Filter) (args : List RawText) (files : Tree)

structure Accepted (o : Options) (filter : Filter) : Prop where
  options : readArgs args = .ok o
  filter : readFilter o.logFilter = .ok filter

structure Loaded (o : Options) (filter : Filter) (source : String) : Prop
    extends Accepted readArgs readFilter args o filter where
  content : ∃ bytes, files.read o.input = .ok bytes ∧ String.fromUTF8? bytes = some source

structure Extracted (o : Options) (filter : Filter) (source : String) (t : Table) : Prop
    extends Loaded readArgs readFilter args files o filter source where
  table : extractStrict (parser source) = .ok t

/--
The first stage of a run that fails, up to the making of the output, with its error.
-/
inductive FailsWith : RunError → Prop where
  | usage {e : UsageError} (h : readArgs args = .error (.refused e)) : FailsWith (.usage e)
  | logFilter {o : Options} {e : FilterError} (hargs : readArgs args = .ok o)
      (h : readFilter o.logFilter = .error e) : FailsWith (.logFilter e)
  | read {o : Options} {filter : Filter} {e : FileError}
      (hacc : Accepted readArgs readFilter args o filter) (h : files.read o.input = .error e)
      : FailsWith (.read o.input e)
  | text {o : Options} {filter : Filter} {bytes : ByteArray}
      (hacc : Accepted readArgs readFilter args o filter) (hread : files.read o.input = .ok bytes)
      (h : String.fromUTF8? bytes = none) : FailsWith (.read o.input .invalidText)
  | parse {o : Options} {filter : Filter} {source : String} {e : ParseError}
      (hload : Loaded readArgs readFilter args files o filter source)
      (h : extractStrict (parser source) = .error e) : FailsWith (.parse e)
  | build {o : Options} {filter : Filter} {source : String} {t : Table}
      (hext : Extracted parser readArgs readFilter args files o filter source t) (h : t.isEmpty = true)
      : FailsWith (.build .noMainFunction)
  | create {o : Options} {filter : Filter} {source : String} {t : Table} {e : FileError}
      (hext : Extracted parser readArgs readFilter args files o filter source t) (hne : t.isEmpty = false)
      (h : files.create o.settings.output = .error e) : FailsWith (.create o.settings.output e)

/--
The files once the diagram is written.
-/
structure Writes (o : Options) (d : Diagram) (final : Tree) : Prop where
  build : ∃ filter source t, Extracted parser readArgs readFilter args files o filter source t ∧
    build t o.policy = .ok d
  write : ∃ p made, files.create o.settings.output = .ok (p, made) ∧
    made.write p d.text.toByteArray = .ok final

/--
What a run that ends with `outcome` and leaves the files `after` may do.
-/
structure FileEffects (outcome : Outcome) (after : Tree) : Prop where
  /-- Nothing but the output changes. -/
  output : ∀ p, after.entry? p ≠ files.entry? p → ∃ o, readArgs args = .ok o ∧
    files.locateNew (o.output.getD (o.input ++ ".txt")) = .ok p
  input : ∀ o p, readArgs args = .ok o → o.output = none → files.locate o.input = .ok p →
    after.entry? p = files.entry? p
  /-- Nothing changes unless there is a diagram. -/
  touched : after ≠ files → ∃ o filter source t,
    Extracted parser readArgs readFilter args files o filter source t ∧ t.isEmpty = false
  failure : ∀ e, FailsWith parser readArgs readFilter args files e →
    after = files ∧ outcome.success = false ∧ outcome.stdout = "" ∧
      outcome.stderr = trimEnd e.message ++ "\n"
  stop : ∀ stop text, readArgs args = .error stop → stop.Shows text →
    after = files ∧ outcome.success = true ∧ outcome.stdout = text ∧ text ≠ "" ∧
      outcome.stderr = ""
  success : ∀ o d final, Writes parser readArgs readFilter args files o d final →
    after = final ∧ outcome.success = true ∧ outcome.stdout = summaryText o.settings d
  quiet : outcome.success = true → outcome.stderr = ""

section Execute

variable (s : Settings) (filter : Filter)

theorem analyse_snd (content : Except FileError ByteArray)
    : (analyse parser s content).2
        =
      ((content.bind decodeText).mapError (.read s.input)).bind fun source =>
        ((extractStrict (parser source)).mapError .parse).bind fun t =>
          (build t s.policy).mapError .build := by
  unfold analyse
  cases content.bind decodeText with
  | error e => rfl
  | ok source =>
    unfold tableOf extractStrict
    simp only [Except.mapError, Except.bind, bind, pure, Except.pure]
    cases (parser source).check with
    | error e => rfl
    | ok tree =>
      unfold diagramOf build
      dsimp only
      cases selectMain (extract tree.root) with
      | error e => rfl
      | ok main => rfl

/--
The lines of a diagram come to the file as one text, whatever the pieces in which they were written.
-/
theorem run_writeLines {p : Path} {made : Tree} (h : made.Writable p) (ls : List Line)
    : (Buffer.run (m := StateM Tree) p ((fileWriter (m := StateM Tree) p).writeLines ls)).run made
        =
      match made.write p (render ls).toByteArray with
      | .ok after => (.ok (), after)
      | .error e => (.error e, made) := by
  rw [Writer.writeLines_eq_forM, ← toByteArray_utf8, utf8_render]
  apply Buffer.run_eq_write h
  apply Buffer.puts_forM
  intro piece
  apply Buffer.puts_put

theorem run_save (output : String) (d : Diagram)
    : (save output d : StateM Tree (Except RunError Unit)).run files
        =
      match files.create output with
      | .error e => (.error (.create output e), files)
      | .ok (p, made) =>
        match made.write p d.text.toByteArray with
        | .error e => (.error (.write output e), made)
        | .ok after => (.ok (), after) := by
  unfold save
  simp only [StateT.run, bind, StateT.bind, Storage.create]
  cases hcreate : files.create output with
  | error e => rfl
  | ok q =>
    have hlines := run_writeLines (Tree.writable_of_create hcreate) d.lines
    unfold StateT.run at hlines
    simp only [StateT.bind, hlines, Diagram.text]
    cases q.2.write q.1 (render d.lines).toByteArray with
    | error e => rfl
    | ok after => rfl

theorem run_execute
    : (execute parser s filter : StateM Tree Outcome).run files
        =
      let logs := renderAll filter s.logFormat
      let events := configured s :: (analyse parser s (files.read s.input)).1
      match (analyse parser s (files.read s.input)).2 with
      | .error e => (failed e (logs events), files)
      | .ok d =>
        match (save s.output d : StateM Tree (Except RunError Unit)).run files with
        | (.error e, after) => (failed e (logs events), after)
        | (.ok (), after) =>
          ({ success := true, stdout := summaryText s d
             logs := logs (events ++ [written s d]) }, after) := by
  unfold execute
  simp only [StateT.run, bind, StateT.bind, pure, Storage.read]
  cases (analyse parser s (files.read s.input)).2 with
  | error e => rfl
  | ok d =>
    simp only [StateT.bind]
    rcases (save s.output d : StateM Tree (Except RunError Unit)) files with ⟨_ | _, after⟩
    . rfl
    . rfl

end Execute

variable {parser} {readArgs} {readFilter} {args} {files}

theorem analyse_of_loaded {o : Options} {filter : Filter} {source : String}
    (h : Loaded readArgs readFilter args files o filter source)
    : (analyse parser o.settings (files.read o.input)).2
        =
      ((extractStrict (parser source)).mapError .parse).bind fun t =>
        (build t o.policy).mapError .build := by
  rcases h.content with ⟨bytes, hread, htext⟩
  rw [analyse_snd, hread]
  simp only [Except.bind, Except.mapError, decodeText, htext, Options.settings]

theorem analyse_of_extracted {o : Options} {filter : Filter} {source : String} {t : Table}
    (h : Extracted parser readArgs readFilter args files o filter source t)
    : (analyse parser o.settings (files.read o.input)).2 = (build t o.policy).mapError .build := by
  rw [analyse_of_loaded h.toLoaded, h.table]
  simp only [Except.bind, Except.mapError]

theorem analyse_settings_of_build {o : Options} {filter : Filter} {source : String} {t : Table}
    {d : Diagram} (h : Extracted parser readArgs readFilter args files o filter source t)
    (hd : build t o.policy = .ok d)
    : (analyse parser o.settings (files.read o.settings.input)).2 = .ok d := by
  apply Eq.trans (analyse_of_extracted h)
  rw [hd]
  rfl

theorem run_runFrom_of_accepted {o : Options} {filter : Filter}
    (h : Accepted readArgs readFilter args o filter)
    : (runFrom parser readArgs readFilter args : StateM Tree Outcome).run files
        =
      (execute parser o.settings filter : StateM Tree Outcome).run files := by
  unfold runFrom
  rw [h.options]
  dsimp only
  rw [h.filter]

theorem run_runFrom_of_analyse {o : Options} {filter : Filter} {e : RunError}
    (h : Accepted readArgs readFilter args o filter)
    (he : (analyse parser o.settings (files.read o.input)).2 = .error e)
    : ∃ logs, (runFrom parser readArgs readFilter args : StateM Tree Outcome).run files
        = (failed e logs, files) := by
  have : (analyse parser o.settings (files.read o.settings.input)).2 = .error e := he
  rw [run_runFrom_of_accepted h, run_execute, this]
  exact ⟨_, rfl⟩

theorem run_runFrom_of_failsWith {e : RunError} (h : FailsWith parser readArgs readFilter args files e)
    : ∃ logs, (runFrom parser readArgs readFilter args : StateM Tree Outcome).run files
        = (failed e logs, files) := by
  cases h with
  | usage h =>
    refine ⟨[], ?_⟩
    unfold runFrom
    rw [h]
    rfl
  | logFilter hargs h =>
    refine ⟨[], ?_⟩
    unfold runFrom
    rw [hargs]
    dsimp only
    rw [h]
    rfl
  | read hacc h =>
    apply run_runFrom_of_analyse hacc
    rw [analyse_snd, h]
    rfl
  | text hacc hread h =>
    apply run_runFrom_of_analyse hacc
    rw [analyse_snd, hread]
    simp only [Except.bind, decodeText, h]
    rfl
  | parse hload h =>
    apply run_runFrom_of_analyse hload.toAccepted
    rw [analyse_of_loaded hload, h]
    rfl
  | build hext h =>
    apply run_runFrom_of_analyse hext.toAccepted
    rw [analyse_of_extracted hext, build_of_isEmpty h]
    rfl
  | @create o filter source t e hext hne h =>
    rcases exists_build_eq_ok hne o.policy with ⟨d, hd⟩
    rw [run_runFrom_of_accepted hext.toAccepted, run_execute, analyse_settings_of_build hext hd]
    dsimp only
    rw [run_save, h]
    exact ⟨_, rfl⟩

theorem run_runFrom_of_shows {stop : Stop} {text : String} (h : readArgs args = .error stop)
    (hshows : stop.Shows text)
    : (runFrom parser readArgs readFilter args : StateM Tree Outcome).run files
        = ({ success := true, stdout := text }, files) := by
  unfold runFrom
  rw [h]
  cases hshows with
  | longHelp => rfl
  | shortHelp => rfl
  | version => rfl

theorem run_runFrom_of_writes {o : Options} {d : Diagram} {final : Tree}
    (h : Writes parser readArgs readFilter args files o d final)
    : ∃ logs, (runFrom parser readArgs readFilter args : StateM Tree Outcome).run files
        = ({ success := true, stdout := summaryText o.settings d, logs := logs }, final) := by
  rcases h.build with ⟨filter, source, t, hext, hd⟩
  rcases h.write with ⟨p, made, hcreate, hwrite⟩
  rw [run_runFrom_of_accepted hext.toAccepted, run_execute, analyse_settings_of_build hext hd]
  dsimp only
  rw [run_save, hcreate]
  dsimp only
  rw [hwrite]
  exact ⟨_, rfl⟩

theorem run_runFrom_of_write_error {o : Options} {filter : Filter} {source : String} {t : Table}
    {d : Diagram} {p : Path} {made : Tree} {e : FileError}
    (h : Extracted parser readArgs readFilter args files o filter source t) (hd : build t o.policy = .ok d)
    (hcreate : files.create o.settings.output = .ok (p, made))
    (he : made.write p d.text.toByteArray = .error e)
    : ∃ logs, (runFrom parser readArgs readFilter args : StateM Tree Outcome).run files
        = (failed (.write o.settings.output e) logs, made) := by
  rw [run_runFrom_of_accepted h.toAccepted, run_execute, analyse_settings_of_build h hd]
  dsimp only
  rw [run_save, hcreate]
  dsimp only
  rw [he]
  exact ⟨_, rfl⟩

theorem run_runFrom_of_create {o : Options} {filter : Filter} {source : String} {t : Table}
    {p : Path} {made : Tree} (h : Extracted parser readArgs readFilter args files o filter source t)
    (hne : t.isEmpty = false) (hcreate : files.create o.settings.output = .ok (p, made))
    : ∃ outcome after,
        (runFrom parser readArgs readFilter args : StateM Tree Outcome).run files = (outcome, after) ∧
        (∀ q, q ≠ p → after.entry? q = files.entry? q) ∧
        (outcome.success = true → outcome.stderr = "") := by
  rcases exists_build_eq_ok hne o.policy with ⟨d, hd⟩
  have hmade := (Tree.entry?_of_create hcreate).2
  cases hwrite : made.write p d.text.toByteArray with
  | error e =>
    rcases run_runFrom_of_write_error h hd hcreate hwrite with ⟨logs, heq⟩
    refine ⟨_, _, heq, hmade, ?_⟩
    intro hsuccess
    contradiction
  | ok final =>
    have hwrites : Writes parser readArgs readFilter args files o d final :=
      ⟨⟨filter, source, t, h, hd⟩, ⟨p, made, hcreate, hwrite⟩⟩
    rcases run_runFrom_of_writes hwrites with ⟨logs, heq⟩
    refine ⟨_, _, heq, ?_, fun _ => rfl⟩
    intro q hq
    rw [Tree.entry?_of_write hwrite q hq, hmade q hq]

variable (parser) (readArgs) (readFilter) (args) (files) in
/--
Every run stops at its command line, fails in one of its stages, or makes its output.
-/
theorem shows_or_failsWith_or_create
    : (∃ stop text, readArgs args = .error stop ∧ stop.Shows text) ∨
      (∃ e, FailsWith parser readArgs readFilter args files e) ∨
      ∃ o filter source t p made, Extracted parser readArgs readFilter args files o filter source t ∧
        t.isEmpty = false ∧ files.create o.settings.output = .ok (p, made) := by
  -- Stage by stage, in the order of the run.
  cases hargs : readArgs args with
  | error stop =>
    cases stop with
    | longHelp => exact .inl ⟨_, _, rfl, .longHelp⟩
    | shortHelp => exact .inl ⟨_, _, rfl, .shortHelp⟩
    | version => exact .inl ⟨_, _, rfl, .version⟩
    | refused e => exact .inr (.inl ⟨_, .usage hargs⟩)
  | ok o =>
    right
    cases hfilter : readFilter o.logFilter with
    | error e => exact .inl ⟨_, .logFilter hargs hfilter⟩
    | ok filter =>
      have hacc : Accepted readArgs readFilter args o filter := ⟨hargs, hfilter⟩
      cases hread : files.read o.input with
      | error e => exact .inl ⟨_, .read hacc hread⟩
      | ok bytes =>
        cases htext : String.fromUTF8? bytes with
        | none => exact .inl ⟨_, .text hacc hread htext⟩
        | some source =>
          have hload : Loaded readArgs readFilter args files o filter source :=
            ⟨hacc, bytes, hread, htext⟩
          cases htable : extractStrict (parser source) with
          | error e => exact .inl ⟨_, .parse hload htable⟩
          | ok t =>
            have hext : Extracted parser readArgs readFilter args files o filter source t :=
              ⟨hload, htable⟩
            cases hempty : t.isEmpty with
            | true => exact .inl ⟨_, .build hext hempty⟩
            | false =>
              cases hcreate : files.create o.settings.output with
              | error e => exact .inl ⟨_, .create hext hempty hcreate⟩
              | ok made => exact .inr ⟨o, filter, source, t, _, _, hext, hempty, hcreate⟩

theorem changes_of_run_runFrom {outcome : Outcome} {after : Tree}
    (h : (runFrom parser readArgs readFilter args : StateM Tree Outcome).run files = (outcome, after))
    : (after = files ∨
        ∃ o filter source t p, Extracted parser readArgs readFilter args files o filter source t ∧
          t.isEmpty = false ∧ files.locateNew o.settings.output = .ok p ∧
          ∀ q, q ≠ p → after.entry? q = files.entry? q) ∧
      (outcome.success = true → outcome.stderr = "") := by
  rcases shows_or_failsWith_or_create parser readArgs readFilter args files
    with ⟨stop, text, hstop, hshows⟩ | ⟨e, he⟩ | ⟨o, filter, source, t, p, made, hext, hne, hcreate⟩
  . rw [run_runFrom_of_shows hstop hshows] at h
    rcases Prod.mk.inj h with ⟨rfl, rfl⟩
    exact ⟨.inl rfl, fun _ => rfl⟩
  . rcases run_runFrom_of_failsWith he with ⟨logs, heq⟩
    rw [heq] at h
    rcases Prod.mk.inj h with ⟨rfl, rfl⟩
    refine ⟨.inl rfl, ?_⟩
    intro hsuccess
    contradiction
  . rcases run_runFrom_of_create hext hne hcreate with ⟨outcome', after', heq, hkept, hsuccess⟩
    rw [heq] at h
    rcases Prod.mk.inj h with ⟨rfl, rfl⟩
    have hlocate := (Tree.entry?_of_create hcreate).1
    exact ⟨.inr ⟨o, filter, source, t, p, hext, hne, hlocate, hkept⟩, hsuccess⟩

variable (parser) (readArgs) (readFilter) (args) (files)

theorem runFrom_fileEffects
    : ∃ outcome after,
        (runFrom parser readArgs readFilter args : StateM Tree Outcome).run files = (outcome, after) ∧
        FileEffects parser readArgs readFilter args files outcome after := by
  rcases hrun : (runFrom parser readArgs readFilter args : StateM Tree Outcome).run files
    with ⟨outcome, after⟩
  rcases changes_of_run_runFrom hrun with ⟨hchanges, hquiet⟩
  refine ⟨outcome, after, rfl, {
    output := ?output
    input := ?input
    touched := ?touched
    failure := ?failure
    stop := ?stop
    success := ?success
    quiet := hquiet
  }⟩
  case output =>
    intro q hq
    rcases hchanges with rfl | ⟨o, filter, source, t, p, hext, -, hlocate, hkept⟩
    . contradiction
    . have hqp : q = p := by
        apply Decidable.byContradiction
        intro hne
        exact hq (hkept q hne)
      subst hqp
      exact ⟨o, hext.options, hlocate⟩
  case input =>
    intro o q ho hnone hq
    rcases hchanges with rfl | ⟨o', filter, source, t, p, hext, -, hlocate, hkept⟩
    . rfl
    . -- The path of the output is that of the input with more characters, so it leads elsewhere.
      have ho' := hext.options
      rw [ho] at ho'
      injection ho' with ho'
      subst ho'
      unfold Options.settings at hlocate
      dsimp only at hlocate
      rw [hnone, Option.getD_none] at hlocate
      apply hkept
      apply Ne.symm
      apply Tree.ne_of_locateNew_append _ _ hq hlocate
      . decide
      . decide
  case touched =>
    intro hne
    rcases hchanges with rfl | ⟨o, filter, source, t, p, hext, hempty, -, -⟩
    . contradiction
    . exact ⟨o, filter, source, t, hext, hempty⟩
  case failure =>
    intro e he
    rcases run_runFrom_of_failsWith he with ⟨logs, heq⟩
    rw [hrun] at heq
    rcases Prod.mk.inj heq with ⟨rfl, rfl⟩
    exact ⟨rfl, rfl, rfl, rfl⟩
  case stop =>
    intro stop text hstop hshows
    rw [run_runFrom_of_shows hstop hshows] at hrun
    rcases Prod.mk.inj hrun with ⟨rfl, rfl⟩
    exact ⟨rfl, rfl, rfl, hshows.ne_empty, rfl⟩
  case success =>
    intro o d final hwrites
    rcases run_runFrom_of_writes hwrites with ⟨logs, heq⟩
    rw [hrun] at heq
    rcases Prod.mk.inj heq with ⟨rfl, rfl⟩
    exact ⟨rfl, rfl, rfl⟩

def callingSource : String := "def f():\n    g()\n    h()\n"

/--
A node on one line. Punctuation and keywords have their text as kind.
-/
def onLine (row column byte : Nat) (kind text : String) (field : Option String) (children : List Node)
    : Node where
  kind := kind
  named := kind != text
  field := field
  start := { byte := byte, row := row, column := column }
  stop := { byte := byte + text.length, row := row, column := column + text.length }
  text := text
  children := children

def callLine (row byte : Nat) (callee : String) : Node :=
  onLine row 4 byte "expression_statement" (callee ++ "()") none [
    onLine row 4 byte "call" (callee ++ "()") none [
      onLine row 4 byte "identifier" callee (some "function") [],
      onLine row 5 (byte + 1) "argument_list" "()" (some "arguments") [
        onLine row 5 (byte + 1) "(" "(" none [],
        onLine row 6 (byte + 2) ")" ")" none []
      ]
    ]
  ]

/--
The tree of `callingSource`, as the parser gives it.
-/
def callingTree : Syntax.Tree where
  root := {
    kind := "module"
    stop := { byte := 25, row := 3 }
    text := callingSource
    children := [
      { kind := "function_definition"
        stop := { byte := 24, row := 2, column := 7 }
        text := "def f():\n    g()\n    h()"
        children := [
          onLine 0 0 0 "def" "def" none [],
          onLine 0 4 4 "identifier" "f" (some "name") [],
          onLine 0 5 5 "parameters" "()" (some "parameters") [
            onLine 0 5 5 "(" "(" none [],
            onLine 0 6 6 ")" ")" none []
          ],
          onLine 0 7 7 ":" ":" none [],
          { kind := "block"
            field := some "body"
            start := { byte := 13, row := 1, column := 4 }
            stop := { byte := 24, row := 2, column := 7 }
            text := "g()\n    h()"
            children := [callLine 1 13 "g", callLine 2 21 "h"] }
        ] }
    ]
  }

def callingTable : Table := .ofList [{ name := "f", calls := ["g", "h"] }]

def callingDiagram : Diagram where
  main := "f"
  lines := [.call "f" "g" ""]
  phase := .truncated "g" 1

def callingFiles : Tree := Tree.base.add ["app.py"] (.file callingSource.toByteArray)

/--
A directory where a file stands in the place of the output.
-/
def staleFiles : Tree := callingFiles.add ["app.py.txt"] (.file "stale".toByteArray)

theorem runFrom_fileEffects_overwriting
    : (∃ outcome after,
        (runFrom (fun _ => callingTree) parse Filter.parse [.ofString "app.py"]
            : StateM Tree Outcome).run staleFiles = (outcome, after) ∧
          outcome.success = true ∧
          outcome.stdout = "wrote 1 diagram lines for f to app.py.txt (main calls stopped at g)\n" ∧
          outcome.stderr = "" ∧
          staleFiles.entry? ["work", "app.py.txt"] = some (.file "stale".toByteArray) ∧
          after.entry? ["work", "app.py.txt"] = some (.file "f->g: \n".toByteArray) ∧
          after.entry? ["work", "app.py"] = some (.file callingSource.toByteArray)) ∧
      ∃ outcome,
        (runFrom (fun _ => callingTree) parse Filter.parse [.ofString "app.py"]
            : StateM Tree Outcome).run Tree.base = (outcome, Tree.base) ∧
          outcome.success = false ∧
          outcome.stdout = "" ∧
          outcome.stderr = "failed to read app.py: No such file or directory (os error 2)\n" := by
  have hargs : parse [.ofString "app.py"] = .ok { input := "app.py" } := by decide +kernel
  have hfilter : Filter.parse "warn" = .ok { directives := [{ level := .warn }] } := by
    decide +kernel
  have hacc : Accepted parse Filter.parse [.ofString "app.py"] { input := "app.py" }
      { directives := [{ level := .warn }] } := ⟨hargs, hfilter⟩
  constructor
  . have hext : Extracted (fun _ => callingTree) parse Filter.parse [.ofString "app.py"] staleFiles
        { input := "app.py" } { directives := [{ level := .warn }] } callingSource callingTable := by
      refine ⟨⟨hacc, callingSource.toByteArray, ?_, ?_⟩, ?_⟩
      . decide +kernel
      . decide +kernel
      . decide +kernel
    have hwrites : Writes (fun _ => callingTree) parse Filter.parse [.ofString "app.py"] staleFiles
        { input := "app.py" } callingDiagram
        (staleFiles.set ["work", "app.py.txt"] (.file "f->g: \n".toByteArray)) := by
      refine ⟨⟨_, _, _, hext, ?_⟩, ["work", "app.py.txt"],
        staleFiles.set ["work", "app.py.txt"] (.file .empty), ?_, ?_⟩
      . decide +kernel
      . decide +kernel
      . decide +kernel
    rcases runFrom_fileEffects (fun _ => callingTree) parse Filter.parse [.ofString "app.py"]
      staleFiles with ⟨outcome, after, hrun, heffects⟩
    rcases heffects.success _ _ _ hwrites with ⟨rfl, hsuccess, hstdout⟩
    refine ⟨outcome, _, hrun, hsuccess, ?_, heffects.quiet hsuccess, ?_, ?_, ?_⟩
    . rw [hstdout]
      decide +kernel
    . decide +kernel
    . decide +kernel
    . have hlocate : staleFiles.locate "app.py" = .ok ["work", "app.py"] := by decide +kernel
      rw [heffects.input _ _ hargs rfl hlocate]
      decide +kernel
  . have hread : Tree.base.read "app.py" = .error .notFound := by decide +kernel
    have hfails : FailsWith (fun _ => callingTree) parse Filter.parse [.ofString "app.py"] Tree.base
        (.read "app.py" .notFound) := .read hacc hread
    rcases runFrom_fileEffects (fun _ => callingTree) parse Filter.parse [.ofString "app.py"] Tree.base
      with ⟨outcome, after, hrun, heffects⟩
    rcases heffects.failure _ hfails with ⟨rfl, hsuccess, hstdout, hstderr⟩
    refine ⟨outcome, hrun, hsuccess, hstdout, ?_⟩
    rw [hstderr]
    decide +kernel

end CallFlow.Cli
