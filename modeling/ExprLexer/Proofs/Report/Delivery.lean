/-
What a device is left with. A report is printed in many small pieces, and a device may take fewer
bytes at a time than it is offered. None of this shows: whatever the pieces are and however many
bytes are taken at once, the device ends with all of the report if there is room for it, and else
with just the bytes that there is room for and its own reason for taking no more.
-/
import ExprLexer.Proofs.Report.Script

namespace ExprLexer

namespace Device

variable {d : Device} {done : Transcript} {steps : List Step} {event : Event} {text : String}
  {output more kept : ByteArray}

/-! ## Room -/

theorem cut?_eq_some_iff : d.cut? output = some kept ↔
    ∃ n, d.room = some n ∧ n < output.size ∧ kept = output.extract 0 n := by
  unfold cut?
  cases d.room with
  | none => simp
  | some n => simp [eq_comm]

theorem cut?_eq_none_iff : d.cut? output = none ↔ ∀ n, d.room = some n → output.size ≤ n := by
  unfold cut?
  cases d.room with
  | none => simp
  | some n => simp

theorem extract_append_of_le {n : Nat} (h : n ≤ output.size) :
    (output ++ more).extract 0 n = output.extract 0 n := by
  rw [ByteArray.extract_append, show n - output.size = 0 by omega]
  simp

/-- A device that cuts an output cuts every longer one in the same place. -/
theorem cut?_append (h : d.cut? output = some kept) : d.cut? (output ++ more) = some kept := by
  obtain ⟨n, hr, hn, rfl⟩ := cut?_eq_some_iff.1 h
  refine cut?_eq_some_iff.2 ⟨n, hr, by rw [ByteArray.size_append]; omega, ?_⟩
  rw [extract_append_of_le (by omega)]

theorem cut?_of_append (h : d.cut? (output ++ more) = none) : d.cut? output = none := by
  rw [cut?_eq_none_iff] at h ⊢
  intro n hn
  have := h n hn
  rw [ByteArray.size_append] at this
  omega

/-! ## Whole texts -/

theorem play_log : d.play done (.log event :: steps) =
    d.play { done with events := done.events.push event } steps := rfl

theorem play_print (h : d.cut? (done.output ++ text.toUTF8) = none) :
    d.play done (.print text :: steps) =
      d.play { done with output := done.output ++ text.toUTF8 } steps := by
  simp only [play, h]

theorem play_refused (h : d.cut? (done.output ++ text.toUTF8) = some kept) :
    d.play done (.print text :: steps) = ({ done with output := kept }, .error d.refusal) := by
  simp only [play, h]

theorem append_printed (output : ByteArray) :
    output ++ (Step.printed (.print text :: steps)).toUTF8 =
      output ++ text.toUTF8 ++ (Step.printed steps).toUTF8 := by
  simp [Step.printed, ByteArray.append_assoc]

/-- A device plays steps on for as long as it has room for all that they print. -/
theorem play_append (h : d.cut? (done.output ++ (Step.printed steps).toUTF8) = none)
    (rest : List Step) : d.play done (steps ++ rest) =
      d.play ⟨done.output ++ (Step.printed steps).toUTF8,
        done.events ++ (Step.logged steps).toArray⟩ rest := by
  induction steps generalizing done with
  | nil => simp [Step.printed, Step.logged]
  | cons x steps ih =>
    cases x with
    | log event =>
      have hplay : d.play { done with events := done.events.push event } (steps ++ rest) = _ := ih h
      rw [List.cons_append, play_log, hplay]
      simp [Step.printed, Step.logged]
    | print text =>
      rw [append_printed] at h ⊢
      rw [List.cons_append, play_print (cut?_of_append h)]
      exact ih h

/-- A device that has room for all that is printed plays a script to its end. -/
theorem play_of_fits (h : d.cut? (done.output ++ (Step.printed steps).toUTF8) = none) :
    d.play done steps = (⟨done.output ++ (Step.printed steps).toUTF8,
      done.events ++ (Step.logged steps).toArray⟩, .ok ()) := by
  rw [← List.append_nil steps, play_append h, List.append_nil]
  rfl

/-- A device that has no room for all that is printed keeps what it has room for, and says why. -/
theorem play_of_cut (hd : d.cut? done.output = none)
    (h : d.cut? (done.output ++ (Step.printed steps).toUTF8) = some kept) :
    ∃ shown, d.play done steps = (⟨kept, shown⟩, .error d.refusal) := by
  induction steps generalizing done with
  | nil =>
    rw [show Step.printed [] = "" from rfl] at h
    simp [hd] at h
  | cons x steps ih =>
    cases x with
    | log event => exact ih hd h
    | print text =>
      rw [append_printed] at h
      -- the cut falls into this text, or there is room for it and the cut comes later
      cases hc : d.cut? (done.output ++ text.toUTF8) with
      | some kept' =>
        rw [cut?_append hc] at h
        cases h
        exact ⟨_, play_refused hc⟩
      | none =>
        rw [play_print hc]
        exact ih hc h

/-! ## Pieces -/

/-- How many of the bytes that are offered are taken, if no more than `pace + 1` are at a time. -/
def takes (d : Device) (pace before offered : Nat) : Nat :=
  match d.room with
  | none => min offered (pace + 1)
  | some n => min (min offered (pace + 1)) (n - before)

/-- Offers bytes until all are taken or, of those that are left, none is. The pace may change with
every byte that has been taken. -/
def offer (d : Device) (pace : Nat → Nat) (output : ByteArray) (bytes : List UInt8) :
    ByteArray × Except WriteError Unit :=
  if bytes = [] then (output, .ok ())
  else
    let n := d.takes (pace output.size) output.size bytes.length
    if n = 0 then (output, .error d.refusal)
    else d.offer pace (output ++ (bytes.take n).toByteArray) (bytes.drop n)
termination_by bytes.length
decreasing_by
  rename_i hb hn
  have := List.length_pos_iff.2 hb
  rw [List.length_drop]
  omega

/-- Offers pieces one after the other, up to the first that is not taken to its end. -/
def offerAll (d : Device) (pace : Nat → Nat) (output : ByteArray) :
    List (List UInt8) → ByteArray × Except WriteError Unit
  | [] => (output, .ok ())
  | piece :: pieces =>
    match d.offer pace output piece with
    | (output, .ok ()) => d.offerAll pace output pieces
    | (output, .error cause) => (output, .error cause)

/-- What a device answers to an output as a whole. -/
def answer (d : Device) (output : ByteArray) : ByteArray × Except WriteError Unit :=
  match d.cut? output with
  | none => (output, .ok ())
  | some kept => (kept, .error d.refusal)

theorem answer_of_fits (h : d.cut? output = none) : d.answer output = (output, .ok ()) := by
  rw [answer, h]

theorem answer_of_cut (h : d.cut? output = some kept) :
    d.answer output = (kept, .error d.refusal) := by
  rw [answer, h]

/-- A device takes no more than it has room for. -/
theorem cut?_takes {pace : Nat} {bytes : List UInt8} (h : d.cut? output = none) :
    d.cut? (output ++ (bytes.take (d.takes pace output.size bytes.length)).toByteArray) = none := by
  rw [cut?_eq_none_iff] at h ⊢
  intro n hn
  have := h n hn
  rw [ByteArray.size_append, List.size_toByteArray, List.length_take]
  simp only [takes, hn]
  omega

/-- A device that takes none of the bytes that are offered has no room left. -/
theorem cut?_takes_zero {pace : Nat} {bytes : List UInt8} (h : d.cut? output = none)
    (hb : bytes ≠ []) (ht : d.takes pace output.size bytes.length = 0) :
    d.cut? (output ++ bytes.toByteArray) = some output := by
  have hlen := List.length_pos_iff.2 hb
  unfold takes at ht
  split at ht
  · omega
  · rename_i n hn
    have hsize : n = output.size := by
      have := cut?_eq_none_iff.1 h n hn
      omega
    refine cut?_eq_some_iff.2 ⟨n, hn, ?_, (ByteArray.extract_append_eq_left hsize).symm⟩
    rw [ByteArray.size_append, List.size_toByteArray]
    omega

/-- At whatever pace bytes are taken, the answer is the one to all of them at once. -/
theorem offer_eq {pace : Nat → Nat} {bytes : List UInt8} (h : d.cut? output = none) :
    d.offer pace output bytes = d.answer (output ++ bytes.toByteArray) := by
  -- what has been taken stays within the room, so a cut of the rest is a cut of the whole
  fun_induction offer d pace output bytes with
  | case1 output => simp [answer_of_fits h]
  | case2 output bytes hb n hn => rw [answer_of_cut (cut?_takes_zero h hb hn)]
  | case3 output bytes hb n hn ih =>
    rw [ih (cut?_takes h), ByteArray.append_assoc, ← List.toByteArray_append, List.take_append_drop]

theorem offerAll_eq {pace : Nat → Nat} {pieces : List (List UInt8)} (h : d.cut? output = none) :
    d.offerAll pace output pieces = d.answer (output ++ pieces.flatten.toByteArray) := by
  induction pieces generalizing output with
  | nil => simp [offerAll, answer_of_fits h]
  | cons piece pieces ih =>
    rw [offerAll, offer_eq h, List.flatten_cons, List.toByteArray_append, ← ByteArray.append_assoc]
    cases hc : d.cut? (output ++ piece.toByteArray) with
    | none => simp only [answer_of_fits hc, ih hc]
    | some kept => simp only [answer_of_cut hc, answer_of_cut (cut?_append hc)]

end Device

/-- How texts reach a device: cut into pieces that are offered one after the other, of each of which
the device takes so many bytes at a time. -/
structure Delivery where
  pieces : String → List (List UInt8)
  flatten_pieces : ∀ text, (pieces text).flatten = Text.bytes text
  pace : Nat → Nat

/-- Plays a script as `play` does, with each text delivered in pieces. -/
def Device.playInPieces (d : Device) (v : Delivery) (done : Transcript) :
    List Step → Transcript × Except WriteError Unit
  | [] => (done, .ok ())
  | .log event :: rest => d.playInPieces v { done with events := done.events.push event } rest
  | .print text :: rest =>
    match d.offerAll v.pace done.output (v.pieces text) with
    | (output, .ok ()) => d.playInPieces v { done with output := output } rest
    | (output, .error cause) => ({ done with output := output }, .error cause)

theorem Device.playInPieces_eq {d : Device} (v : Delivery) {done : Transcript} {steps : List Step}
    (h : d.cut? done.output = none) : d.playInPieces v done steps = d.play done steps := by
  induction steps generalizing done with
  | nil => rfl
  | cons x steps ih =>
    cases x with
    | log event => exact ih h
    | print text =>
      rw [playInPieces, offerAll_eq h, v.flatten_pieces, Text.toByteArray_bytes,
        ← String.toUTF8_eq_toByteArray]
      -- the room that is left after a text is what the induction asks for
      cases hc : d.cut? (done.output ++ text.toUTF8) with
      | none =>
        rw [answer_of_fits hc, play_print hc]
        exact ih hc
      | some kept => rw [answer_of_cut hc, play_refused hc]

/-! ## Reports -/

namespace Report

/-- Plays a script as `play` does, with each text delivered in pieces. -/
def Script.playInPieces (x : Script) (device : Device) (v : Delivery) : Outcome :=
  let (transcript, played) := device.playInPieces v .empty x.steps
  { result := match played with
      | .ok () => x.ending
      | .error cause => .error (.unwritable cause)
    output := transcript.output
    events := transcript.events.toList }

/-- Makes a report as `run` does, with each text delivered in pieces. -/
def runInPieces (config : Config) (files : Files) (device : Device) (v : Delivery) :
    Except Fault Outcome := do
  match sourceText files config.input with
  | .error failure => return ⟨.error failure, .empty, []⟩
  | .ok source => return (← script config source).playInPieces device v

variable {config : Config} {files : Files} {device : Device} {s : String}

theorem runInPieces_eq (v : Delivery) :
    runInPieces config files device v = run config files device := by
  have hempty : device.cut? Transcript.empty.output = none :=
    Device.cut?_eq_none_iff.2 fun n _ => Nat.zero_le n
  have hplay : ∀ x : Script, x.playInPieces device v = x.play device := by
    intro x
    rw [Script.playInPieces, Device.playInPieces_eq v hempty]
    rfl
  unfold runInPieces run
  cases sourceText files config.input with
  | error failure => rfl
  | ok source => simp only [hplay]

variable {steps : List Step} {ending : Except Failure Summary} {kept : ByteArray}

theorem play_of_fits (h : device.cut? (Step.printed steps).toUTF8 = none) :
    Script.play ⟨steps, ending⟩ device =
      ⟨ending, (Step.printed steps).toUTF8, Step.logged steps⟩ := by
  have hplay : device.play .empty steps = _ :=
    Device.play_of_fits (by simpa [Transcript.empty] using h)
  rw [Script.play, hplay]
  simp [Transcript.empty]

theorem play_of_cut (h : device.cut? (Step.printed steps).toUTF8 = some kept) :
    ∃ shown, Script.play ⟨steps, ending⟩ device =
      ⟨.error (.unwritable device.refusal), kept, shown⟩ := by
  have hempty : device.cut? Transcript.empty.output = none :=
    Device.cut?_eq_none_iff.2 fun n _ => Nat.zero_le n
  obtain ⟨shown, hplay⟩ := Device.play_of_cut hempty
    (show device.cut? (Transcript.empty.output ++ (Step.printed steps).toUTF8) = some kept by
      simpa [Transcript.empty] using h)
  exact ⟨shown.toList, by rw [Script.play, hplay]⟩

/-- A report on a source that can be read leaves a device with what it has room for: the report that
a device without limit gets, and the same answer, or just the first bytes of it and the reason of
the device for taking no more. A file that cannot be read leaves every device with nothing. In
whatever pieces and at whatever pace the bytes come, nothing changes. -/
theorem run_room (config : Config) (files : Files) :
    (∀ s, sourceText files config.input = .ok s → s.utf8ByteSize ≤ Buffer.maxLength →
      ∃ summary full events,
        (∀ refusal, run config files ⟨none, refusal⟩ = .ok ⟨.ok summary, full, events⟩) ∧
        ∀ n refusal,
          (full.size ≤ n →
            run config files ⟨some n, refusal⟩ = .ok ⟨.ok summary, full, events⟩) ∧
          (n < full.size → ∃ shown, run config files ⟨some n, refusal⟩ =
            .ok ⟨.error (.unwritable refusal), full.extract 0 n, shown⟩ ∧
            (Failure.unwritable refusal).exitCode = 1)) ∧
    (∀ path cause, config.input = .file path → files.text path = .error cause →
      ∀ device, run config files device = .ok ⟨.error (.unreadable path cause), .empty, []⟩) ∧
    ∀ device v, runInPieces config files device v = run config files device := by
  refine ⟨fun s hs h => ?_, fun path cause hp hf device => ?_, fun device v => runInPieces_eq v⟩
  · obtain ⟨ts, hl⟩ := exists_lexes 0 s
    obtain ⟨steps, hx⟩ : ∃ steps, script config s = .ok ⟨steps, .ok (summaryOf ts)⟩ :=
      ⟨_, script_lexes h hl config⟩
    refine ⟨summaryOf ts, (Step.printed steps).toUTF8, Step.logged steps, fun refusal => ?_,
      fun n refusal => ⟨fun hn => ?_, fun hn => ?_⟩⟩
    · have hfits : Device.cut? ⟨none, refusal⟩ (Step.printed steps).toUTF8 = none := rfl
      rw [run_eq_play hs hx, play_of_fits hfits]
    · have hfits : Device.cut? ⟨some n, refusal⟩ (Step.printed steps).toUTF8 = none :=
        if_neg (by omega)
      rw [run_eq_play hs hx, play_of_fits hfits]
    · have hcut : Device.cut? ⟨some n, refusal⟩ (Step.printed steps).toUTF8 = some _ := if_pos hn
      obtain ⟨shown, hplay⟩ := play_of_cut hcut
      exact ⟨shown, by rw [run_eq_play hs hx, hplay], rfl⟩
  · rw [run, hp, sourceText, hf]
    rfl

/-- A device whose room ends inside a character, and a file that is not a text. -/
theorem run_room_inside_character :
    (∃ shown,
      run ⟨.inline "é", false, false⟩ (fun _ => .error .notFound) ⟨some 9, .failed "broken"⟩ =
        .ok ⟨.error (.unwritable (.failed "broken")), "Input: \"".toUTF8.push 0xC3, shown⟩) ∧
    run ⟨.file "a", false, false⟩ (fun _ => .ok [0xFF].toByteArray) .unlimited =
      .ok ⟨.error (.unreadable "a" .notUtf8), .empty, []⟩ := by
  constructor
  · obtain ⟨summary, full, events, hfull, hroom⟩ :=
      (run_room ⟨.inline "é", false, false⟩ fun _ => .error .notFound).1 "é" rfl (by decide)
    have hout : (run ⟨.inline "é", false, false⟩ (fun _ => .error .notFound) ⟨none, .full⟩).map
        (·.output) = .ok ("Input: \"é\"\ntoken type: 1, token text: \"é\"\n" ++
          "simplelexer version 0.1.0\n").toUTF8 := by
      decide +kernel
    rw [hfull] at hout
    obtain rfl := Except.ok.inj hout
    obtain ⟨shown, hshown, -⟩ := (hroom 9 (.failed "broken")).2 (by decide +kernel)
    have hcut : ("Input: \"é\"\ntoken type: 1, token text: \"é\"\n" ++
        "simplelexer version 0.1.0\n").toUTF8.extract 0 9 = "Input: \"".toUTF8.push 0xC3 := by
      decide +kernel
    exact ⟨shown, hcut ▸ hshown⟩
  · exact (run_room ⟨.file "a", false, false⟩ _).2.1 "a" .notUtf8 rfl (by decide +kernel) _

end Report

end ExprLexer
