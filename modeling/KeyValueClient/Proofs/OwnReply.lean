import KeyValueClient.Proofs.Buffering

/-!
# Each command is answered by its own read

On a link of messages a read uses up one event, and what did not fit is lost.  Then the exchanges of
a session and the events of its reads correspond one to one: the `j`-th line that says a command and
is sent meets the `j`-th event, and no other line meets one (`reads_afterLines`).

**What comes of such a line is a function of its event** (`answerTo`).  Nothing that came before it
makes a difference, be it a reply, a failure or what is left in a buffer (`answer_of_own_read`).
-/

namespace KeyValueClient
namespace Connection

open Link (Script ReadEvent Buffered)

/-- What comes of a line whose command was sent, given the event that the read meets. -/
def answerTo (c : Connection) (delay : Nat) : Option ReadEvent → LineOutcome
  | none => .communicationError (.closed c.peer)
  | some (.fail fault) => .communicationError (.io fault)
  | some (.data bytes) =>
    if bytes.take c.capacity = [] then .communicationError (.closed c.peer)
    else
      match Response.ofPayload (bytes.take c.capacity) with
      | .ok response => .reply response.outcome delay
      | .error fault => .communicationError (.protocol fault)

/-- Whether a line says a command that can be sent. -/
def sends (line : String) (s : Script) : Bool :=
  match Command.ofLine? line with
  | none => false
  | some command => ((send command : StateM Script (Except Fault Unit)).run s).1.toBool

/-- How many lines of a session say a command that is sent. -/
def exchanges (c : Connection) : List String → Script → Nat
  | [], _ => 0
  | line :: lines, s =>
    (if sends line s then 1 else 0) + exchanges c lines (c.afterLine line s)

/-! ## One line -/

theorem ofReceived_received (c : Connection) (delay : Nat) (event : Option ReadEvent) :
    LineOutcome.ofReceived delay (c.received (ReadEvent.brings c.capacity event)) =
      c.answerTo delay event := by
  rcases event with _ | bytes | fault
  · rfl
  · show LineOutcome.ofReceived delay (if bytes.take c.capacity = [] then _ else _) = _
    unfold answerTo
    by_cases hempty : bytes.take c.capacity = []
    · simp only [hempty, if_true]
      rfl
    · simp only [hempty, if_false]
      cases Response.ofPayload (bytes.take c.capacity) with
      | ok response => rfl
      | error fault => rfl
  · rfl

theorem sends_eq_true_iff {line : String} {s : Script} :
    sends line s = true ↔
      ∃ command, Command.ofLine? line = some command ∧ s.delivery command.encode = .ok () := by
  unfold sends
  cases Command.ofLine? line with
  | none => simp
  | some command =>
    have hsend : ((send command : StateM Script (Except Fault Unit)).run s).1 =
        (s.delivery command.encode).mapError .io := by rw [run_send]
    simp only [hsend, Option.some.injEq, exists_eq_left']
    cases s.delivery command.encode with
    | ok => simp [Except.mapError, Except.toBool]
    | error fault => simp [Except.mapError, Except.toBool]

variable {c : Connection} {line : String} {lines : List String} {s : Script} {i : Nat}

/-- A line that is sent is answered by the event at the front. -/
theorem answer_of_sends (h : sends line s = true) :
    c.answer line s = some (c.answerTo s.delay s.reads.head?) := by
  obtain ⟨command, hcommand, hsend⟩ := sends_eq_true_iff.mp h
  rw [answer, run_handleLine_of_sent hcommand hsend, ofReceived_received]

/-- A line that is sent uses up the event at the front, and any other line uses up none. -/
theorem reads_afterLine (hkeep : s.keepRest = false) :
    (c.afterLine line s).reads = s.reads.drop (if sends line s then 1 else 0) := by
  rcases c.afterLine_cases line s with
    ⟨hline, h⟩ | ⟨command, hline, ⟨fault, hsend, h⟩ | ⟨hsend, h⟩⟩
  · have hsends : sends line s = false := by
      unfold sends
      rw [hline]
    rw [h, hsends]
    rfl
  · have hsends : sends line s = false := by
      unfold sends
      simp only [hline, run_send, hsend]
      rfl
    rw [h, hsends]
    rfl
  · have hsends : sends line s = true := sends_eq_true_iff.mpr ⟨command, hline, hsend⟩
    have hkeep' : (s.afterSend command.encode).keepRest = false := by
      rw [Script.afterSend_keepRest, hkeep]
    rw [h, hsends]
    show (s.afterSend command.encode).readsAfter c.capacity = s.reads.drop 1
    rw [Script.readsAfter_of_not_keepRest hkeep', Script.afterSend_reads, List.drop_one]

/-! ## Sessions -/

/-- **A session uses up one event for each command that it has sent.** -/
theorem reads_afterLines (hkeep : s.keepRest = false) (lines : List String) :
    (c.afterLines lines s).reads = s.reads.drop (c.exchanges lines s) := by
  induction lines generalizing s with
  | nil => rfl
  | cons line lines ih =>
    have hnext : (c.afterLine line s).keepRest = false := by
      rw [(keepRest_afterLine c line s).1, hkeep]
    rw [afterLines_cons, ih hnext, reads_afterLine hkeep, List.drop_drop, exchanges]

/-- **Each command is answered by its own read, and by nothing else.**  Let what does not fit a read
be lost, and let `j` earlier lines of a session have said commands that were sent.  Then the first
`j` events are used up.  A line that says a command and is sent is answered by the next event alone
and uses it up, and any other line uses up none.  A session that reads through a buffer does the
same, whatever the buffer holds. -/
theorem answer_of_own_read (c : Connection) (lines : List String) (s : Script)
    (hkeep : s.keepRest = false) :
    (∀ (i : Nat) (line : String), lines[i]? = some line →
      let before := c.afterLines (lines.take i) s
      let after := c.afterLines (lines.take (i + 1)) s
      let j := c.exchanges (lines.take i) s
      before.reads = s.reads.drop j ∧
      (sends line before = true →
        (c.answers lines s)[i]? = some (some (c.answerTo s.delay s.reads[j]?)) ∧
        after.reads = s.reads.drop (j + 1)) ∧
      (sends line before = false → after.reads = s.reads.drop j)) ∧
    ∀ buffer : Bytes,
      (Buffered.run (c.handleLines lines : Buffered (StateM Script) _) buffer).run s =
        (c.answers lines s, c.afterLines lines s) := by
  refine ⟨?_, ?_⟩
  · intro i line hi before after j
    have hbefore : before.reads = s.reads.drop j := reads_afterLines hkeep (lines.take i)
    have hafter : after.reads = s.reads.drop (j + if sends line before then 1 else 0) := by
      show (c.afterLines (lines.take (i + 1)) s).reads = _
      rw [afterLines_take_succ c hi, reads_afterLine, hbefore, List.drop_drop]
      rw [(keepRest_afterLines c (lines.take i) s).1, hkeep]
    refine ⟨hbefore, ?_, ?_⟩
    · intro hsends
      rw [hsends] at hafter
      refine ⟨?_, hafter⟩
      rw [getElem?_answers c hi, answer_of_sends hsends, hbefore, List.head?_drop,
        (keepRest_afterLines c (lines.take i) s).2]
    · intro hsends
      rw [hsends] at hafter
      exact hafter
  · intro buffer
    rw [forgets_handleLines c lines buffer]
    rfl

/-- The first command gets bytes that say nothing, a blank line and a line without its value are
passed over, and the sending of the next command fails.  The last line is the second that is sent,
and it is answered by the second event. -/
theorem answer_of_own_read_past_faults :
    let c : Connection := ⟨"peer", 4096⟩
    let lines := ["PING", " ", "SET k", "GET a", "GET b"]
    let reply := Response.withMessage "two"
    let s : Script :=
      { reads := [.data [0xc1], .data reply.encode]
        writes := [.accept 100, .fail ⟨"broken pipe", false⟩] }
    s.keepRest = false ∧ c.exchanges (lines.take 4) s = 1 ∧
      sends "GET b" (c.afterLines (lines.take 4) s) = true ∧
      (c.answers lines s)[4]? = some (some (.reply (.message "two") 0)) := by
  intro c lines reply s
  have hexchanges : c.exchanges (lines.take 4) s = 1 := by decide
  have hsends : sends "GET b" (c.afterLines (lines.take 4) s) = true := by decide
  obtain ⟨hlines, -⟩ := answer_of_own_read c lines s rfl
  obtain ⟨-, hsent, -⟩ := hlines 4 "GET b" rfl
  obtain ⟨hanswer, -⟩ := hsent hsends
  have hshown : c.answerTo s.delay s.reads[1]? = .reply (.message "two") 0 := by decide
  rw [hexchanges, hshown] at hanswer
  exact ⟨rfl, hexchanges, hsends, hanswer⟩

end Connection
end KeyValueClient
