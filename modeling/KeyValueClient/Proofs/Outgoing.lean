import KeyValueClient.Proofs.Lines
import KeyValueClient.Proofs.Requests

/-!
# What a session has written

The writes and flushes to come, and what was written, are one side of a link, and the reads are the
other.  A line that says a command does to the first side what sending the command does, and any
other line does nothing to it (`sameSending_afterLine`, `afterLine_of_none`).  So this side of a
session depends on the typed lines alone, whatever is received.

On an obliging link, what was written are the commands that were typed, one after the other, and
nothing else (`written_of_obliging`).  Since no encoded command is the beginning of another, **the
commands can be told from the bytes** (`flatMap_encode_inj`, `written_determined_by_lines`).
-/

namespace KeyValueClient

open Link (Script)

namespace Command

open MessagePack

/-! ## The bytes of commands -/

/-- A command is written as a map whose first key is `command`. -/
theorem exists_encode_eq (c : Command) : ∃ header rest, c.encode = header :: 0xa7 :: rest := by
  cases c with
  | set key value expiry => cases expiry <;> exact ⟨_, _, rfl⟩
  | _ => exact ⟨_, _, rfl⟩

theorem encode_ne_nil (c : Command) : c.encode ≠ [] := by
  obtain ⟨header, rest, h⟩ := c.exists_encode_eq
  rw [h]
  exact List.cons_ne_nil _ _

/-- A command is all that its value says. -/
theorem toValue_inj {c d : Command} (h : c.toValue = d.toValue) : c = d := by
  have hc := ofValue_toValue c
  rw [h, ofValue_toValue] at hc
  cases hc
  rfl

/-- **Commands can be told from their bytes**, with nothing between them. -/
theorem flatMap_encode_inj {commands others : List Command}
    (hcommands : ∀ command ∈ commands, command.Storable)
    (hothers : ∀ other ∈ others, other.Storable)
    (h : commands.flatMap encode = others.flatMap encode) : commands = others := by
  induction commands generalizing others with
  | nil =>
    rcases others with _ | ⟨other, others⟩
    · rfl
    · have hnil := h.symm
      rw [List.flatMap_cons, List.flatMap_nil, List.append_eq_nil_iff] at hnil
      exact absurd hnil.1 other.encode_ne_nil
  | cons command commands ih =>
    obtain ⟨hcommand, hlater⟩ := List.forall_mem_cons.mp hcommands
    rcases others with _ | ⟨other, others⟩
    · rw [List.flatMap_cons, List.flatMap_nil, List.append_eq_nil_iff] at h
      exact absurd h.1 command.encode_ne_nil
    · obtain ⟨hother, hrest⟩ := List.forall_mem_cons.mp hothers
      rw [List.flatMap_cons, List.flatMap_cons] at h
      -- both commands are at the front of the same bytes, and no object begins with another
      obtain ⟨-, hvalue⟩ := hcommand.denotes.prefix_free hother.denotes h
      obtain rfl := toValue_inj hvalue
      rw [ih hlater hrest (List.append_cancel_left h)]

end Command

namespace Connection

/-! ## The sending side of a script -/

/-- Two scripts agree on all that has to do with sending. -/
structure SameSending (s t : Script) : Prop where
  writes : s.writes = t.writes
  flushes : s.flushes = t.flushes
  written : s.written = t.written

theorem SameSending.afterSend {s t : Script} (h : SameSending s t) (message : Bytes) :
    SameSending (s.afterSend message) (t.afterSend message) := by
  obtain ⟨hwrites, hflushes, hwritten⟩ := h
  constructor
  · simp only [Script.afterSend, hwrites]
  · simp only [Script.afterSend, hwrites, hflushes]
  · simp only [Script.afterSend, hwrites, hwritten]

theorem SameSending.obliging {s t : Script} (h : SameSending s t) (ht : t.Obliging) :
    s.Obliging where
  writes := h.writes ▸ ht.writes
  flushes := h.flushes ▸ ht.flushes

variable {c : Connection} {line : String} {command : Command} {s : Script}

/-- For the sending side, a line that says a command is the sending of the command. -/
theorem sameSending_afterLine (hline : Command.ofLine? line = some command) :
    SameSending (c.afterLine line s) (s.afterSend command.encode) := by
  rcases hsend : s.delivery command.encode with fault | _
  · rw [afterLine_of_unsent hline hsend]
    exact ⟨rfl, rfl, rfl⟩
  · rw [afterLine_of_sent hline hsend]
    exact ⟨rfl, rfl, rfl⟩

/-- **The sending side of a session does not depend on the receiving side.** -/
theorem sameSending_afterLines {s t : Script} (h : SameSending s t) (c d : Connection)
    (lines : List String) : SameSending (c.afterLines lines s) (d.afterLines lines t) := by
  induction lines generalizing s t with
  | nil => exact h
  | cons line lines ih =>
    rw [afterLines_cons, afterLines_cons]
    refine ih ?_
    cases hline : Command.ofLine? line with
    | none =>
      rw [afterLine_of_none hline, afterLine_of_none hline]
      exact h
    | some command =>
      have hs := sameSending_afterLine (c := c) (s := s) hline
      have ht := sameSending_afterLine (c := d) (s := t) hline
      have hst := h.afterSend command.encode
      exact ⟨hs.writes.trans (hst.writes.trans ht.writes.symm),
        hs.flushes.trans (hst.flushes.trans ht.flushes.symm),
        hs.written.trans (hst.written.trans ht.written.symm)⟩

/-! ## Obliging links -/

/-- On an obliging link every command is written whole. -/
theorem written_of_obliging (hs : s.Obliging) (lines : List String) :
    (c.afterLines lines s).written =
      s.written ++ (lines.filterMap Command.ofLine?).flatMap Command.encode := by
  induction lines generalizing s with
  | nil => exact (List.append_nil _).symm
  | cons line lines ih =>
    rw [afterLines_cons]
    cases hline : Command.ofLine? line with
    | none => rw [afterLine_of_none hline, List.filterMap_cons_none hline, ih hs]
    | some command =>
      have hsame := sameSending_afterLine (c := c) (s := s) hline
      rw [ih (hsame.obliging (hs.afterSend _)), hsame.written, Script.afterSend_written,
        Script.accepted_of_delivery (hs.delivery _), List.filterMap_cons_some hline,
        List.flatMap_cons, List.append_assoc]

/-- **What a session writes is determined by the typed lines, and determines the commands.**  On an
obliging link it writes the commands of the lines, in order, and nothing else.  Different lists of
commands have different bytes.  And on any link, two sessions over the same lines have written the
same behind every line if their scripts agree on sending, whatever they read. -/
theorem written_determined_by_lines :
    (∀ (c : Connection) (s : Script) (lines : List String), s.Obliging →
      (c.afterLines lines s).written =
        s.written ++ (lines.filterMap Command.ofLine?).flatMap Command.encode) ∧
    (∀ commands others : List Command, (∀ command ∈ commands, command.Storable) →
      (∀ other ∈ others, other.Storable) →
      commands.flatMap Command.encode = others.flatMap Command.encode → commands = others) ∧
    (∀ (c d : Connection) (s t : Script) (lines : List String), SameSending s t →
      ∀ i, (c.afterLines (lines.take i) s).written = (d.afterLines (lines.take i) t).written) := by
  refine ⟨?_, ?_, ?_⟩
  · intro c s lines hs
    exact written_of_obliging hs lines
  · intro commands others hcommands hothers h
    exact Command.flatMap_encode_inj hcommands hothers h
  · intro c d s t lines h i
    exact (sameSending_afterLines h c d (lines.take i)).written

/-- Four lines, two of them commands, over a link that takes one byte, is interrupted and then takes
the rest; and the same lines over a link whose reads fail. -/
theorem written_determined_by_four_lines :
    let lines := ["ping", " ", "GET \"k", " GET k "]
    let script : Script := { writes := [.accept 1, .fail ⟨"interrupted", true⟩] }
    let failing : Script := { script with reads := [.fail ⟨"broken", false⟩] }
    let commands : List Command := [.ping, .get "k"]
    script.Obliging ∧
      ((⟨"peer", 16⟩ : Connection).afterLines lines script).written =
        commands.flatMap Command.encode ∧
      (∀ command ∈ commands, command.Storable) ∧ commands = [.ping, .get "k"] ∧
      SameSending script failing ∧
      ((⟨"peer", 16⟩ : Connection).afterLines (lines.take 1) script).written =
        ((⟨"peer", 8⟩ : Connection).afterLines (lines.take 1) failing).written := by
  intro lines script failing commands
  obtain ⟨hwritten, hinj, hsame⟩ := written_determined_by_lines
  have hobliging : script.Obliging :=
    ⟨List.forall_mem_cons.mpr ⟨one_ne_zero, List.forall_mem_singleton.mpr rfl⟩,
      fun _ h => absurd h List.not_mem_nil⟩
  have hstorable : ∀ command ∈ commands, command.Storable := by
    intro command hcommand name text h
    rcases List.mem_pair.mp hcommand with rfl | rfl
    · cases h
    · cases List.mem_singleton.mp h
      decide
  exact ⟨hobliging, hwritten ⟨"peer", 16⟩ script lines hobliging, hstorable,
    hinj commands [.ping, .get "k"] hstorable hstorable rfl, ⟨rfl, rfl, rfl⟩,
    hsame ⟨"peer", 16⟩ ⟨"peer", 8⟩ script failing lines ⟨rfl, rfl, rfl⟩ 1⟩

end Connection
end KeyValueClient
