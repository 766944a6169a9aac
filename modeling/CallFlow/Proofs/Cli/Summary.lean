import CallFlow.Proofs.Cli.Run
import CallFlow.Proofs.Diagram.Render

/-!
This module contains that what a run says at its end is true of the file that it has written
(`summary_agrees_with_file`). How sources, command lines and log filters are read does not matter for this.
-/

namespace CallFlow.Cli

open CallFlow.Text CallFlow.Functions CallFlow.Diagram CallFlow.Log CallFlow.Files
open CallFlow.Syntax (Node)

theorem exists_of_bind_eq_ok {ε α β : Type} {x : Except ε α} {f : α → Except ε β} {b : β}
    (h : x.bind f = .ok b) : ∃ a, x = .ok a ∧ f a = .ok b := by
  cases x with
  | error e => contradiction
  | ok a => exact ⟨a, rfl, h⟩

theorem eq_ok_of_mapError_eq_ok {ε ε' α : Type} {x : Except ε α} {f : ε → ε'} {a : α}
    (h : x.mapError f = .ok a) : x = .ok a := by
  cases x with
  | error e => contradiction
  | ok b =>
    injection h with h
    rw [h]

theorem decodeText_eq_ok_iff (bytes : ByteArray) (source : String)
    : decodeText bytes = .ok source ↔ String.fromUTF8? bytes = some source := by
  unfold decodeText
  cases String.fromUTF8? bytes with
  | none => simp
  | some text => simp

/--
What a summary says of how the list of the main function's calls ended.
-/
def suffix : Phase → String
  | .complete => ""
  | .truncated callee _ => " (main calls stopped at " ++ callee ++ ")"

theorem suffix_eq_empty_iff (phase : Phase) : suffix phase = "" ↔ phase = .complete := by
  cases phase with
  | complete => exact ⟨fun _ => rfl, fun _ => rfl⟩
  | truncated callee skipped =>
    unfold suffix
    rw [String.append_eq_empty_iff]
    simp

theorem summaryText_eq (s : Settings) (d : Diagram)
    : summaryText s d
        =
      "wrote " ++ toString d.lines.length ++ " diagram lines for " ++ d.main ++ " to " ++ s.output ++
        suffix d.phase ++ "\n" := by
  unfold summaryText suffix
  cases d.phase <;> rfl

variable {parser : String → Syntax.Tree} {readArgs : List RawText → Except Stop Options}
  {readFilter : String → Except FilterError Filter} {args : List RawText} {files after : Tree}
  {outcome : Outcome}

theorem exists_of_analyse_eq_ok {s : Settings} {content : Except FileError ByteArray} {d : Diagram}
    (h : (analyse parser s content).2 = .ok d)
    : ∃ bytes source t,
        content = .ok bytes ∧
        String.fromUTF8? bytes = some source ∧
        extractStrict (parser source) = .ok t ∧
        build t s.policy = .ok d := by
  rw [analyse_snd] at h
  rcases exists_of_bind_eq_ok h with ⟨source, hsource, h⟩
  rcases exists_of_bind_eq_ok (eq_ok_of_mapError_eq_ok hsource) with ⟨bytes, hbytes, htext⟩
  rcases exists_of_bind_eq_ok h with ⟨t, htable, hd⟩
  exact ⟨bytes, source, t, hbytes, (decodeText_eq_ok_iff bytes source).mp htext,
    eq_ok_of_mapError_eq_ok htable, eq_ok_of_mapError_eq_ok hd⟩

theorem failed_ne_of_success {e : RunError} {logs : List String} {left : Tree}
    (h : outcome.success = true) : (failed e logs, left) ≠ (outcome, after) := by
  intro heq
  rcases Prod.mk.inj heq with ⟨rfl, _⟩
  contradiction

theorem exists_of_run_execute {s : Settings} {filter : Filter}
    (hrun : (execute parser s filter : StateM Tree Outcome).run files = (outcome, after))
    (hsuccess : outcome.success = true)
    : ∃ d p made,
        (analyse parser s (files.read s.input)).2 = .ok d ∧
        files.create s.output = .ok (p, made) ∧
        made.write p d.text.toByteArray = .ok after ∧
        outcome.stdout = summaryText s d := by
  rw [run_execute] at hrun
  dsimp only at hrun
  -- A run that fails in one of its stages does not succeed.
  cases hd : (analyse parser s (files.read s.input)).2 with
  | error e =>
    rw [hd] at hrun
    exact absurd hrun (failed_ne_of_success hsuccess)
  | ok d =>
    rw [hd] at hrun
    dsimp only at hrun
    rw [run_save] at hrun
    cases hcreate : files.create s.output with
    | error e =>
      rw [hcreate] at hrun
      exact absurd hrun (failed_ne_of_success hsuccess)
    | ok q =>
      rcases q with ⟨p, made⟩
      rw [hcreate] at hrun
      dsimp only at hrun
      cases hwrite : made.write p d.text.toByteArray with
      | error e =>
        rw [hwrite] at hrun
        exact absurd hrun (failed_ne_of_success hsuccess)
      | ok final =>
        rw [hwrite] at hrun
        rcases Prod.mk.inj hrun with ⟨rfl, rfl⟩
        exact ⟨d, p, made, rfl, rfl, hwrite, rfl⟩

theorem exists_of_run_runFrom {o : Options} (hargs : readArgs args = .ok o)
    (hrun : (runFrom parser readArgs readFilter args : StateM Tree Outcome).run files = (outcome, after))
    (hsuccess : outcome.success = true)
    : ∃ filter, (execute parser o.settings filter : StateM Tree Outcome).run files = (outcome, after) := by
  unfold runFrom at hrun
  rw [hargs] at hrun
  dsimp only at hrun
  cases hfilter : readFilter o.logFilter with
  | error e =>
    rw [hfilter] at hrun
    exact absurd hrun (failed_ne_of_success hsuccess)
  | ok filter =>
    rw [hfilter] at hrun
    exact ⟨filter, hrun⟩

variable (parser) (files) in
/--
What a run has done that began with `files` and has written the diagram `d` of the text `source`: it leaves
the files `after` and shows `stdout`.
-/
structure Wrote (o : Options) (stdout : String) (after : Tree) (source : String) (t : Table)
    (main : Record) (d : Diagram) (stopped : String) : Prop where
  /-- The text is that of the input before the run. -/
  read : ∃ content, files.read o.input = .ok content ∧ String.fromUTF8? content = some source
  extracted : extractStrict (parser source) = .ok t
  selected : selectMain t = .ok main
  built : build t o.policy = .ok d
  /-- The output, unless it is a device, has the text of the diagram and nothing else. There is a line feed,
  the byte 10, for each line. -/
  file : ∃ p, files.locateNew o.settings.output = .ok p ∧
    (files.entry? p ≠ some .full → ∃ bytes, after.entry? p = some (.file bytes) ∧
      bytes = (render d.lines).toByteArray ∧
      (AllNamed NewlineFree (parser source).root → bytes.data.toList.count 10 = d.lines.length))
  stdout_eq : stdout
      =
    "wrote " ++ toString d.lines.length ++ " diagram lines for " ++ main.name ++ " to " ++
      o.settings.output ++ stopped ++ "\n"
  stopped_ne_empty_iff : stopped ≠ "" ↔ o.policy = .truncate ∧ ∃ c ∈ main.calls, c ∉ t.names
  stopped_eq : ∀ i c, o.policy = .truncate → FirstUnknown t main.calls i c →
    stopped = " (main calls stopped at " ++ c ++ ")"

theorem eq_extract_of_extractStrict {tree : Syntax.Tree} {t : Table} (h : extractStrict tree = .ok t)
    : t = extract tree.root := by
  unfold extractStrict at h
  rcases exists_of_bind_eq_ok h with ⟨checked, hchecked, ht⟩
  injection ht with ht
  unfold Syntax.Tree.check at hchecked
  split at hchecked
  . contradiction
  . split at hchecked
    . contradiction
    . injection hchecked with hchecked
      rw [← ht, ← hchecked]

variable {o : Options} {source : String} {t : Table} {d : Diagram}

theorem count_of_build (htable : extractStrict (parser source) = .ok t)
    (hd : build t o.policy = .ok d) (hroot : AllNamed NewlineFree (parser source).root)
    : d.text.toByteArray.data.toList.count 10 = d.lines.length := by
  rw [eq_extract_of_extractStrict htable] at hd
  apply Eq.trans (count_utf8 d.text)
  apply count_newline_render_build hroot hd

/--
A run that was not stopped by its command line and succeeds has written the diagram of its input, and what
it says of the diagram is so.
-/
theorem summary_agrees_with_file (hargs : readArgs args = .ok o)
    (hrun : (runFrom parser readArgs readFilter args : StateM Tree Outcome).run files = (outcome, after))
    (hsuccess : outcome.success = true)
    : ∃ source t main d stopped,
        Wrote parser files o outcome.stdout after source t main d stopped := by
  rcases exists_of_run_runFrom hargs hrun hsuccess with ⟨filter, hexecute⟩
  rcases exists_of_run_execute hexecute hsuccess with ⟨d, p, made, hanalyse, hcreate, hwrite, hstdout⟩
  rcases exists_of_analyse_eq_ok hanalyse with ⟨content, source, t, hread, htext, htable, hd⟩
  have hd : build t o.policy = .ok d := hd
  rcases exists_selectMain_of_build hd with ⟨main, hmain, hfrom⟩
  refine ⟨source, t, main, d, suffix d.phase, {
    read := ⟨content, hread, htext⟩
    extracted := htable
    selected := hmain
    built := hd
    file := ⟨p, (Tree.entry?_of_create hcreate).1, ?file⟩
    stdout_eq := ?stdout_eq
    stopped_ne_empty_iff := ?stopped_ne_empty_iff
    stopped_eq := ?stopped_eq
  }⟩
  case file =>
    intro hfull
    exact ⟨_, Tree.entry?_of_create_of_write hcreate hwrite hfull, rfl, count_of_build htable hd⟩
  case stdout_eq =>
    rw [hstdout, summaryText_eq, hfrom]
    rfl
  case stopped_ne_empty_iff =>
    rw [Ne, suffix_eq_empty_iff, hfrom]
    unfold buildFrom
    rw [listed_snd_eq_complete_iff, Decidable.not_not]
  case stopped_eq =>
    intro i c hpolicy hc
    rw [hfrom, hpolicy]
    unfold buildFrom
    rw [hc.listed_truncate]
    rfl

def callingRun : Outcome × Tree :=
  (runFrom (fun _ => callingTree) parse Filter.parse [.ofString "app.py"] : StateM Tree Outcome).run
    callingFiles

theorem summary_agrees_with_file_calling
    : parse [.ofString "app.py"] = .ok { input := "app.py" } ∧
        callingRun.1.success = true ∧
        callingRun.1.stdout
          = "wrote 1 diagram lines for f to app.py.txt (main calls stopped at g)\n" ∧
        ∃ source t main d stopped bytes,
          Wrote (fun _ => callingTree) callingFiles { input := "app.py" } callingRun.1.stdout
            callingRun.2 source t main d stopped ∧
          main.calls = ["g", "h"] ∧
          stopped = " (main calls stopped at g)" ∧
          Tree.entry? callingRun.2 ["work", "app.py.txt"] = some (.file bytes) ∧
          bytes = "f->g: \n".toByteArray ∧
          bytes.data.toList.count 10 = d.lines.length := by
  have hargs : parse [.ofString "app.py"] = .ok { input := "app.py" } := by decide +kernel
  have hrun : (runFrom (fun _ => callingTree) parse Filter.parse [.ofString "app.py"]
      : StateM Tree Outcome).run callingFiles = (callingRun.1, callingRun.2) := rfl
  have hsuccess : callingRun.1.success = true := by decide +kernel
  have hstdout : callingRun.1.stdout
      = "wrote 1 diagram lines for f to app.py.txt (main calls stopped at g)\n" := by decide +kernel
  rcases summary_agrees_with_file hargs hrun hsuccess with ⟨source, t, main, d, stopped, h⟩
  have ht := h.extracted
  have htable : extractStrict callingTree = .ok callingTable := by decide +kernel
  rw [htable] at ht
  injection ht with ht
  subst ht
  have hmain : main = { name := "f", calls := ["g", "h"] } := by
    have hselected := h.selected
    injection hselected with hselected
    exact hselected.symm
  subst hmain
  have hfirst : FirstUnknown callingTable ["g", "h"] 0 "g" := ⟨rfl, by decide, by simp⟩
  have hnames : AllWellNamed callingTree.root := by decide +kernel
  rcases h.file with ⟨p, hp, hfile⟩
  have hlocate : callingFiles.locateNew "app.py.txt" = .ok ["work", "app.py.txt"] := by decide +kernel
  have hp : callingFiles.locateNew "app.py.txt" = .ok p := hp
  rw [hlocate] at hp
  injection hp with hp
  subst hp
  rcases hfile (by decide +kernel) with ⟨bytes, hentry, _, hcount⟩
  have hcontent : Tree.entry? callingRun.2 ["work", "app.py.txt"] = some (.file "f->g: \n".toByteArray) := by
    decide +kernel
  refine ⟨hargs, hsuccess, hstdout, source, _, _, d, stopped, bytes, h, rfl,
    h.stopped_eq 0 "g" rfl hfirst, hentry, ?_, ?_⟩
  . rw [hcontent] at hentry
    injection hentry with hentry
    injection hentry with hentry
    exact hentry.symm
  . exact hcount (hnames.allNamed.imp fun _ hs => hs.newlineFree)

end CallFlow.Cli
