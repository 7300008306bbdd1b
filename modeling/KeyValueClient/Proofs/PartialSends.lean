import KeyValueClient.Proofs.Outgoing
import Mathlib.Data.List.Forall2

/-!
# Commands that are not written whole

Writing can stop at any byte.  What a session has put on its link at any moment (`Moment`) consists
of one part for each command that was typed, and each part is a beginning of its command
(`exists_parts`).  A part that is not the whole command is answered with the failure of the link
(`WritesPart.getElem?_answers`).

A part may be empty: then nothing of the command is there, and nothing is wrong with the bytes.  A
command is *stopped partway* when some of it is there, but not all.  **Up to the first command that
is stopped partway, the bytes are whole commands and then at most one part of a command**
(`written_until_partway`).

A session makes no new connection.  It goes on with the link that it has, so the next command is
written behind the part (`written_behind_part`).
-/

namespace KeyValueClient
namespace Connection

open Link (Script)

variable {c : Connection} {command : Command} {s : Script}

/-! ## Parts -/

/-- The line at a position says a command and adds a part to what was written. -/
structure WritesPart (c : Connection) (lines : List String) (s : Script) (i : Nat)
    (command : Command) (part : Bytes) : Prop where
  line : lines[i]?.bind Command.ofLine? = some command
  written : (c.afterLines (lines.take (i + 1)) s).written =
    (c.afterLines (lines.take i) s).written ++ part

/-- The command at a position is stopped partway: some of it is written, but not all. -/
def StopsPartway (c : Connection) (lines : List String) (s : Script) (i : Nat) : Prop :=
  ∃ command part, c.WritesPart lines s i command part ∧ part ≠ [] ∧ part ≠ command.encode

variable {lines : List String} {i : Nat}

/-- Each line with a command writes a beginning of it. -/
theorem exists_writesPart (c : Connection) (s : Script)
    (hline : lines[i]?.bind Command.ofLine? = some command) :
    ∃ part, part <+: command.encode ∧ c.WritesPart lines s i command part := by
  obtain ⟨line, hi, hcommand⟩ := Option.bind_eq_some_iff.mp hline
  refine ⟨_, Link.offer_accepted_prefix (c.afterLines (lines.take i) s).writes command.encode,
    hline, ?_⟩
  rw [afterLines_take_succ c hi, (sameSending_afterLine hcommand).written,
    Script.afterSend_written]

/-- Each line without a command writes nothing. -/
theorem afterLines_take_succ_of_none (c : Connection) (s : Script)
    (hline : lines[i]?.bind Command.ofLine? = none) :
    c.afterLines (lines.take (i + 1)) s = c.afterLines (lines.take i) s := by
  cases hi : lines[i]? with
  | none => rw [List.take_add_one, hi, Option.toList_none, List.append_nil]
  | some line =>
    rw [hi, Option.bind_some] at hline
    rw [afterLines_take_succ c hi, afterLine_of_none hline]

/-- The commands typed in the first lines. -/
def typed (lines : List String) (i : Nat) : List Command :=
  (lines.take i).filterMap Command.ofLine?

theorem typed_succ (lines : List String) (i : Nat) :
    typed lines (i + 1) = typed lines i ++ (lines[i]?.bind Command.ofLine?).toList := by
  unfold typed
  rw [List.take_add_one, List.filterMap_append]
  cases lines[i]? with
  | none => rfl
  | some line =>
    rw [Option.toList_some, Option.bind_some, List.filterMap_cons]
    cases Command.ofLine? line <;> rfl

/-- A command that was not written whole is answered with the failure of the link. -/
theorem WritesPart.getElem?_answers {part : Bytes} (h : c.WritesPart lines s i command part)
    (hpart : part ≠ command.encode) :
    ∃ fault, (c.answers lines s)[i]? = some (some (.communicationError (.io fault))) := by
  obtain ⟨line, hi, hcommand⟩ := Option.bind_eq_some_iff.mp h.line
  have hwritten := h.written
  rw [afterLines_take_succ c hi, (sameSending_afterLine hcommand).written,
    Script.afterSend_written, List.append_right_inj] at hwritten
  rw [Connection.getElem?_answers c hi, answer]
  rcases hsend : (c.afterLines (lines.take i) s).delivery command.encode with fault | _
  · exact ⟨fault, by rw [run_handleLine_of_unsent hcommand hsend]⟩
  · rw [Script.accepted_of_delivery hsend] at hwritten
    exact absurd hwritten.symm hpart

/-- What stands on the link at a moment while a line is handled: all that was written before the
line, and a beginning of what the line adds. -/
structure Moment (c : Connection) (lines : List String) (s : Script) (i : Nat) (bytes : Bytes) :
    Prop where
  low : (c.afterLines (lines.take i) s).written <+: bytes
  high : bytes <+: (c.afterLines (lines.take (i + 1)) s).written

/-- When a line has been handled, all that it adds stands on the link. -/
theorem moment_afterLines (c : Connection) (lines : List String) (s : Script) (i : Nat) :
    c.Moment lines s i (c.afterLines (lines.take (i + 1)) s).written where
  low := by
    cases hline : lines[i]?.bind Command.ofLine? with
    | none =>
      refine ⟨[], ?_⟩
      rw [List.append_nil, afterLines_take_succ_of_none c s hline]
    | some command =>
      obtain ⟨part, -, hpart⟩ := exists_writesPart c s hline
      rw [hpart.written]
      exact List.prefix_append _ _
  high := List.prefix_rfl

/-- At any moment a beginning of the line's command has been added, if the line says one. -/
theorem Moment.exists_part {bytes : Bytes} (h : c.Moment lines s i bytes) :
    ∃ part, bytes = (c.afterLines (lines.take i) s).written ++ part ∧
      (lines[i]?.bind Command.ofLine? = none → part = []) ∧
      ∀ command, lines[i]?.bind Command.ofLine? = some command → part <+: command.encode := by
  obtain ⟨part, rfl⟩ := h.low
  have hhigh := h.high
  refine ⟨part, rfl, ?_, ?_⟩
  · intro hline
    rw [afterLines_take_succ_of_none c s hline] at hhigh
    have hlen := hhigh.length_le
    rw [List.length_append] at hlen
    exact List.eq_nil_of_length_eq_zero (by omega)
  · intro command hline
    obtain ⟨whole, hprefix, hwhole⟩ := exists_writesPart c s hline
    rw [hwhole.written, List.prefix_append_right_inj] at hhigh
    exact hhigh.trans hprefix

/-- What stands on the link has one part for each command typed, and each part is a beginning of its
command: if it was so before a line, it is so at every moment of the line. -/
theorem Moment.exists_parts {bytes : Bytes} (h : c.Moment lines s i bytes) {parts : List Bytes}
    (hwritten : (c.afterLines (lines.take i) s).written = s.written ++ parts.flatten)
    (hparts : List.Forall₂ (fun part command => part <+: command.encode) parts (typed lines i)) :
    ∃ parts : List Bytes, bytes = s.written ++ parts.flatten ∧
      List.Forall₂ (fun part command => part <+: command.encode) parts (typed lines (i + 1)) := by
  obtain ⟨part, rfl, hnone, hsome⟩ := h.exists_part
  rw [typed_succ, hwritten]
  cases hline : lines[i]?.bind Command.ofLine? with
  | none =>
    refine ⟨parts, ?_, ?_⟩
    · rw [hnone hline, List.append_nil]
    · rwa [Option.toList_none, List.append_nil]
  | some command =>
    refine ⟨parts ++ [part], ?_, List.rel_append hparts (.cons (hsome command hline) .nil)⟩
    rw [List.flatten_append, List.flatten_singleton, List.append_assoc]

theorem exists_parts (c : Connection) (lines : List String) (s : Script) (i : Nat) :
    ∃ parts : List Bytes, (c.afterLines (lines.take i) s).written = s.written ++ parts.flatten ∧
      List.Forall₂ (fun part command => part <+: command.encode) parts (typed lines i) := by
  induction i with
  | zero => exact ⟨[], (List.append_nil _).symm, .nil⟩
  | succ i ih =>
    obtain ⟨parts, hwritten, hparts⟩ := ih
    exact (moment_afterLines c lines s i).exists_parts hwritten hparts

/-- As long as no command is stopped partway, whole commands are written. -/
theorem exists_commands (h : ∀ j < i, ¬ c.StopsPartway lines s j) :
    ∃ commands : List Command, commands.Sublist (typed lines i) ∧
      (c.afterLines (lines.take i) s).written =
        s.written ++ commands.flatMap Command.encode := by
  induction i with
  | zero => exact ⟨[], List.nil_sublist _, (List.append_nil _).symm⟩
  | succ i ih =>
    obtain ⟨commands, hsublist, hwritten⟩ := ih fun j hj => h j (Nat.lt_succ_of_lt hj)
    rw [typed_succ]
    cases hline : lines[i]?.bind Command.ofLine? with
    | none =>
      refine ⟨commands, ?_, ?_⟩
      · rwa [Option.toList_none, List.append_nil]
      · rw [afterLines_take_succ_of_none c s hline, hwritten]
    | some command =>
      obtain ⟨part, -, hpart⟩ := exists_writesPart c s hline
      by_cases hnone : part = []
      · refine ⟨commands, hsublist.trans (List.sublist_append_left _ _), ?_⟩
        rw [hpart.written, hwritten, hnone, List.append_nil]
      · -- something was written, and the command was not stopped, so all of it was
        have hwhole : part = command.encode := by
          by_contra hne
          exact h i (Nat.lt_succ_self i) ⟨command, part, hpart, hnone, hne⟩
        refine ⟨commands ++ [command], hsublist.append (List.Sublist.refl _), ?_⟩
        rw [hpart.written, hwritten, hwhole, List.flatMap_append, List.flatMap_singleton,
          List.append_assoc]

/-- **Up to the first command that is stopped partway, whole commands are written and then at most
one part of a command.**  At every moment of every session the bytes on the link consist of one
beginning of each typed command, in order.  If no earlier command was stopped partway, they are
whole commands and behind them a proper beginning of a command.  A command that was not written
whole is answered with the failure of the link. -/
theorem written_until_partway (c : Connection) (lines : List String) (s : Script) :
    (∀ i bytes, c.Moment lines s i bytes →
      (∃ parts : List Bytes, bytes = s.written ++ parts.flatten ∧
        List.Forall₂ (fun part command => part <+: command.encode) parts (typed lines (i + 1))) ∧
      ((∀ j < i, ¬ c.StopsPartway lines s j) →
        ∃ (commands : List Command) (command : Command) (part : Bytes),
          commands.Sublist (typed lines (i + 1)) ∧ part <+: command.encode ∧
          part ≠ command.encode ∧
          bytes = s.written ++ commands.flatMap Command.encode ++ part)) ∧
    (∀ i command part, c.WritesPart lines s i command part → part ≠ command.encode →
      ∃ fault, (c.answers lines s)[i]? = some (some (.communicationError (.io fault)))) := by
  refine ⟨?_, fun i command part h hpart => h.getElem?_answers hpart⟩
  intro i bytes hmoment
  obtain ⟨parts, hparts⟩ := exists_parts c lines s i
  refine ⟨hmoment.exists_parts hparts.1 hparts.2, ?_⟩
  intro hearlier
  obtain ⟨commands, hsublist, hwritten⟩ := exists_commands hearlier
  obtain ⟨part, rfl, hnone, hsome⟩ := hmoment.exists_part
  rw [typed_succ, hwritten]
  cases hline : lines[i]?.bind Command.ofLine? with
  | none =>
    rw [hnone hline]
    exact ⟨commands, .ping, [], hsublist.trans (List.sublist_append_left _ _), List.nil_prefix,
      (Command.encode_ne_nil _).symm, rfl⟩
  | some command =>
    by_cases hwhole : part = command.encode
    · refine ⟨commands ++ [command], .ping, [], hsublist.append (List.Sublist.refl _),
        List.nil_prefix, (Command.encode_ne_nil _).symm, ?_⟩
      rw [hwhole, List.flatMap_append, List.flatMap_singleton, List.append_nil, List.append_assoc]
    · exact ⟨commands, command, part, hsublist.trans (List.sublist_append_left _ _),
        hsome command hline, hwhole, rfl⟩

/-- A command that fails before any of it is written, and behind it one that is stopped after three
bytes. -/
theorem written_until_partway_of_two_faults :
    let broken : Link.WriteEvent := .fail ⟨"broken pipe", false⟩
    let c : Connection := ⟨"peer", 4096⟩
    let lines := ["PING", "GET k"]
    let script : Script := { writes := [broken, .accept 3, broken] }
    c.Moment lines script 1 [0x82, 0xa7] ∧ (∀ j < 1, ¬ c.StopsPartway lines script j) ∧
      (∃ (commands : List Command) (command : Command) (part : Bytes),
        commands.Sublist (typed lines 2) ∧ part <+: command.encode ∧ part ≠ command.encode ∧
        [0x82, 0xa7] = script.written ++ commands.flatMap Command.encode ++ part) ∧
      c.WritesPart lines script 1 (.get "k") [0x82, 0xa7, 0x63] ∧
      ∃ fault, (c.answers lines script)[1]? = some (some (.communicationError (.io fault))) := by
  intro broken c lines script
  obtain ⟨hmoments, hanswers⟩ := written_until_partway c lines script
  have hmoment : c.Moment lines script 1 [0x82, 0xa7] := ⟨⟨_, rfl⟩, ⟨[0x63], rfl⟩⟩
  have hearlier : ∀ j < 1, ¬ c.StopsPartway lines script j := by
    rintro j hj ⟨command, part, hpart, hne, -⟩
    obtain rfl : j = 0 := by omega
    exact hne hpart.written.symm
  have hpart : c.WritesPart lines script 1 (.get "k") [0x82, 0xa7, 0x63] := ⟨rfl, rfl⟩
  exact ⟨hmoment, hearlier, (hmoments 1 _ hmoment).2 hearlier, hpart,
    hanswers 1 _ _ hpart (by decide)⟩

/-- **Behind a part, the next command is written.**  A command is stopped after one byte and another
one follows; no list of whole commands with at most one part behind it has these bytes. -/
theorem written_behind_part :
    let c : Connection := ⟨"peer", 4096⟩
    let script : Script := { writes := [.accept 1, .fail ⟨"broken pipe", false⟩] }
    ¬ ∃ (commands : List Command) (command : Command) (part : Bytes),
      part <+: command.encode ∧ part ≠ command.encode ∧
      (c.afterLines ["PING", "PING"] script).written =
        commands.flatMap Command.encode ++ part := by
  intro c script
  rintro ⟨commands, command, part, hprefix, -, hwritten⟩
  have hbytes : (c.afterLines ["PING", "PING"] script).written =
      0x81 :: 0x81 :: (Command.encode .ping).tail := rfl
  rw [hbytes] at hwritten
  -- the second byte of a command is the header of its first key
  rcases commands with _ | ⟨first, commands⟩
  · obtain ⟨header, rest, hencode⟩ := command.exists_encode_eq
    have hpart : part = 0x81 :: 0x81 :: (Command.encode .ping).tail := hwritten.symm
    rw [hencode, hpart] at hprefix
    cases (List.cons_prefix_cons.mp (List.cons_prefix_cons.mp hprefix).2).1
  · obtain ⟨header, rest, hencode⟩ := first.exists_encode_eq
    rw [List.flatMap_cons, hencode] at hwritten
    cases hwritten

end Connection
end KeyValueClient
