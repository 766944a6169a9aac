import CallFlow.Diagram.Build
import CallFlow.Diagram.Sink
import CallFlow.Proofs.Diagram.Writer

/-!
This module contains what a sink holds after lines have been written to it, whether it has become full or
not. To write piece by piece is to write the whole text at once (`writer_joins`), since a write that fails
has filled the sink (`write_append`).
-/

namespace CallFlow.Diagram.Sink

/--
One write after another, unless the first fails.
-/
def andThen (r : Sink × Except WriteError Unit) (f : Sink → Sink × Except WriteError Unit)
    : Sink × Except WriteError Unit :=
  match r with
  | (s, .ok ()) => f s
  | (s, .error e) => (s, .error e)

theorem write_nil (s : Sink) : s.write [] = (s, .ok ()) := by
  have hroom : s.room 0 = 0 := by
    unfold room
    split
    . rfl
    . apply Nat.zero_min
  unfold write
  simp [hroom]

/--
What does not fit in full leaves no room for anything behind it.
-/
theorem write_append (s : Sink) (bs cs : List UInt8)
    : s.write (bs ++ cs) = andThen (s.write bs) fun s => s.write cs := by
  rcases s with ⟨capacity, content⟩
  cases capacity with
  | none =>
    have htake : (bs ++ cs).take (bs.length + cs.length) = bs ++ cs := by
      rw [← List.length_append, List.take_length]
    simp [write, room, andThen, htake]
  | some k =>
    by_cases hfits : bs.length ≤ k - content.length
    . have hbs : min bs.length (k - content.length) = bs.length := Nat.min_eq_left hfits
      have hcs : min (bs.length + cs.length) (k - content.length)
          = bs.length + min cs.length (k - (content.length + bs.length)) := by omega
      simp only [write, room, andThen, List.length_append, hbs, hcs, List.take_length,
        List.take_length_add_append, List.append_assoc, ↓reduceIte, Nat.add_left_cancel_iff]
    . have hbs : min bs.length (k - content.length) = k - content.length := by omega
      have hcs : min (bs.length + cs.length) (k - content.length) = k - content.length := by omega
      have hne : k - content.length ≠ bs.length := by omega
      have hne' : k - content.length ≠ bs.length + cs.length := by omega
      have htake : (bs ++ cs).take (k - content.length) = bs.take (k - content.length) := by
        apply List.take_append_of_le_length
        omega
      simp only [write, room, andThen, List.length_append, hbs, hcs, htake, hne, hne', ↓reduceIte]

theorem run_put (s : Sink) (bytes : List UInt8)
    : (writer.put bytes).run.run s = ((s.write bytes).2, (s.write bytes).1) := rfl

theorem run_seq (x y : ExceptT WriteError (StateM Sink) Unit) (s : Sink)
    : (do x; y).run.run s =
      match x.run.run s with
      | (.ok (), s) => y.run.run s
      | (.error e, s) => (.error e, s) := by
  rw [ExceptT.run_bind, StateT.run_bind]
  rcases x.run.run s with ⟨e | u, s⟩
  . rfl
  . rfl

theorem writer_joins : writer.Joins := by
  constructor
  . funext s
    apply Eq.trans (run_put s [])
    rw [write_nil]
    rfl
  . intro bs cs
    funext s
    apply Eq.trans (run_put s (bs ++ cs))
    apply Eq.trans _ (run_seq _ _ s).symm
    rw [run_put, write_append]
    rcases s.write bs with ⟨s, e | u⟩
    . rfl
    . rfl

theorem writeLines_eq_write (s : Sink) (ls : List Line)
    : s.writeLines ls = s.write (utf8 (render ls)) := by
  unfold writeLines
  rw [writer_joins.writeLines_eq, run_seq, run_put]
  rcases s.write (utf8 (render ls)) with ⟨s, e | u⟩
  . rfl
  . rfl

theorem writeLines_append (s : Sink) (ls later : List Line)
    : s.writeLines (ls ++ later) = andThen (s.writeLines ls) fun s => s.writeLines later := by
  simp only [writeLines_eq_write, utf8_render_append, write_append]

/--
A sink with room for `k` bytes gets the first `k` bytes of the text of some lines, and that is a failure
exactly if the text is longer. A sink without a bound gets all of it. Behind a failure nothing is written of
later lines. The text of a diagram is that of its lines.
-/
theorem writeLines_agrees_with_render (ls : List Line)
    : (∀ k, ({ capacity := some k } : Sink).writeLines ls
          =
        ({ capacity := some k
           content := (utf8 (render ls)).take (min k (utf8 (render ls)).length) },
          if (utf8 (render ls)).length ≤ k then .ok () else .error .full)) ∧
      ({} : Sink).writeLines ls = ({ content := utf8 (render ls) }, .ok ()) ∧
      (∀ (s s' : Sink) e later, s.writeLines ls = (s', .error e) →
        s.writeLines (ls ++ later) = (s', .error e)) ∧
      ∀ d : Diagram, d.lines = ls → d.text = render ls := by
  refine ⟨?_, ?_, ?_, ?_⟩
  . intro k
    rw [writeLines_eq_write]
    unfold write room
    dsimp only [List.length_nil, Nat.sub_zero, List.nil_append]
    rw [Nat.min_comm k]
    congr 1
    by_cases hfits : (utf8 (render ls)).length ≤ k
    . rw [if_pos hfits, if_pos (Nat.min_eq_left hfits)]
    . rw [if_neg hfits, if_neg]
      omega
  . rw [writeLines_eq_write]
    simp [write, room]
  . intro s s' e later h
    rw [writeLines_append, h]
    rfl
  . rintro d rfl
    rfl

/--
A note that is cut within its last character, and a call behind it.
-/
theorem writeLines_agrees_with_render_accented
    : ({ capacity := some 13 } : Sink).writeLines [.note "f" "é", .call "f" "g" ""]
          = ({ capacity := some 13, content := utf8 "note over f:" ++ [0xC3] }, .error .full) ∧
        ({} : Sink).writeLines [.note "f" "é"] = ({ content := utf8 "note over f:é\n" }, .ok ()) := by
  rcases writeLines_agrees_with_render [.note "f" "é"] with ⟨hbounded, hunbounded, hlater, _⟩
  have hcontent : (utf8 (render [.note "f" "é"])).take (min 13 (utf8 (render [.note "f" "é"])).length)
      = utf8 "note over f:" ++ [0xC3] := by decide +kernel
  have hlength : ¬(utf8 (render [.note "f" "é"])).length ≤ 13 := by decide +kernel
  constructor
  . apply hlater _ _ .full [.call "f" "g" ""]
    rw [hbounded 13, hcontent, if_neg hlength]
  . exact hunbounded

end CallFlow.Diagram.Sink
