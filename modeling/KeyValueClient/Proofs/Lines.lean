import KeyValueClient.Proofs.ScriptEvents
import KeyValueClient.Proofs.Truncation
import KeyValueClient.Session

/-!
# The lines of a session

What a line does to a scripted link is said once, in four cases: a blank line does nothing, a line
that is no command gets an answer and does nothing else (`handleLine_of_blank`,
`run_handleLine_of_invalid`), and a command either fails on its way or is sent and followed by one
read (`run_handleLine_of_unsent`, `run_handleLine_of_sent`).  Everything about sessions is derived
from these cases; `afterLine_cases` says what they leave of the link.

A session handles one line after the other on the same link.  `answers` is what comes of its lines
and `afterLines` the script behind them.  What is true of the script before the first line, and kept
by every line, is true behind every line (`afterLines_induction`); what a line does in a session is
what it does to the script that the lines before it have left (`getElem?_answers`,
`afterLines_take_succ`).
-/

namespace KeyValueClient

open Link (Script ReadEvent)

namespace Command

/-- The command that a typed line says.  The blanks around a line do not count. -/
def ofLine? (line : String) : Option Command := (parse (Text.strip line)).toOption

theorem ofLine?_eq_some_iff {line : String} {command : Command} :
    ofLine? line = some command ↔ parse (Text.strip line) = .ok command := by
  unfold ofLine?
  cases parse (Text.strip line) with
  | error fault => simp [Except.toOption]
  | ok parsed => simp [Except.toOption]

/-- A blank line says no command. -/
theorem ofLine?_of_blank {line : String} (h : Text.strip line = "") : ofLine? line = none := by
  unfold ofLine?
  rw [h]
  rfl

end Command

/-- What comes of a line whose command was sent. -/
def LineOutcome.ofReceived (latency : Nat) : Except Fault Response → LineOutcome
  | .ok response => .reply response.outcome latency
  | .error fault => .communicationError fault

namespace Connection

/-! ## An exchange -/

/-- What is received, given what the read brought. -/
def received (c : Connection) : Except IOFault Bytes → Except Fault Response
  | .error fault => .error (.io fault)
  | .ok payload =>
    if payload = [] then .error (.closed c.peer)
    else (Response.ofPayload payload).mapError .protocol

/-- The warnings about what a read brought. -/
def receiveWarnings (c : Connection) : Except IOFault Bytes → List String
  | .error _ => []
  | .ok payload =>
    if payload ≠ [] ∧ payload.length = c.capacity then [c.truncationWarning] else []

theorem run_send (command : Command) (s : Script) :
    (send command : StateM Script (Except Fault Unit)).run s =
      ((s.delivery command.encode).mapError .io, s.afterSend command.encode) := by
  unfold send
  rw [StateT.run_bind, Script.run_send]
  cases s.delivery command.encode with
  | ok => rfl
  | error fault => rfl

/-- The script when something has been received. -/
def afterReceive (c : Connection) (s : Script) : Script :=
  { s.afterRead c.capacity with
    warnings := s.warnings ++ c.receiveWarnings (ReadEvent.brings c.capacity s.reads.head?) }

theorem run_receive (c : Connection) (s : Script) :
    (c.receive : StateM Script (Except Fault Response)).run s =
      (c.received (ReadEvent.brings c.capacity s.reads.head?), c.afterReceive s) := by
  have hread := Script.read_eq c.capacity s
  have hlink : (Link.read c.capacity : StateM Script _).run s = s.read c.capacity := rfl
  rcases hbrought : ReadEvent.brings c.capacity s.reads.head? with fault | payload
  · rw [hbrought] at hread
    unfold receive
    rw [StateT.run_bind, hlink, hread, afterReceive, hbrought, receiveWarnings, List.append_nil]
    rfl
  · rw [hbrought] at hread
    by_cases hempty : payload = []
    · subst hempty
      unfold receive
      rw [StateT.run_bind, hlink, hread, afterReceive, hbrought, receiveWarnings,
        if_neg (fun h => h.1 rfl), List.append_nil]
      rfl
    · rw [run_receive_of_read hread hempty, afterReceive, hbrought, received, receiveWarnings,
        if_neg hempty]
      by_cases hfull : payload.length = c.capacity
      · rw [if_pos hfull, if_pos ⟨hempty, hfull⟩]
        rfl
      · rw [if_neg hfull, if_neg (fun h => hfull h.2), List.append_nil]
        rfl

section RoundTrip

variable {c : Connection} {command : Command} {s : Script}

/-- What follows the sending of a command sees how it ended and when it began. -/
theorem run_now_bind_send_bind {α : Type} (command : Command)
    (next : Nat → Except Fault Unit → StateM Script α) (s : Script) :
    (Link.now >>= fun start => send command >>= next start : StateM Script α).run s =
      (next s.clock ((s.delivery command.encode).mapError .io)).run
        (s.afterSend command.encode) := by
  have hnow : (Link.now : StateM Script Nat).run s = (s.clock, s) := rfl
  rw [StateT.run_bind, hnow]
  show StateT.run (send command >>= next s.clock) s = _
  rw [StateT.run_bind, run_send]
  rfl

/-- A command whose sending fails is not followed by a read. -/
theorem run_roundTrip_of_error {fault : IOFault} (h : s.delivery command.encode = .error fault) :
    (c.roundTrip command : StateM Script (Except Fault (Response × Nat))).run s =
      (.error (.io fault), s.afterSend command.encode) := by
  unfold roundTrip
  rw [run_now_bind_send_bind, h]
  rfl

/-- A command that was sent is answered by one read, and only the read takes time. -/
theorem run_roundTrip_of_ok (h : s.delivery command.encode = .ok ()) :
    (c.roundTrip command : StateM Script (Except Fault (Response × Nat))).run s =
      ((c.received (ReadEvent.brings c.capacity s.reads.head?)).map fun response =>
          (response, s.delay),
        c.afterReceive (s.afterSend command.encode)) := by
  unfold roundTrip
  rw [run_now_bind_send_bind, h]
  show StateT.run (c.receive >>= _) (s.afterSend command.encode) = _
  rw [StateT.run_bind, run_receive, Script.afterSend_reads]
  cases c.received (ReadEvent.brings c.capacity s.reads.head?) with
  | error fault => rfl
  | ok response =>
    show (Except.ok (response, s.clock + s.delay - s.clock), _) = _
    rw [Nat.add_sub_cancel_left]
    rfl

end RoundTrip

/-! ## One line -/

/-- The warnings about an exchange that brought no response. -/
def exchangeWarnings (c : Connection) (command : Command) : Except Fault Response → List String
  | .ok _ => []
  | .error fault => [c.failureWarning command fault]

/-- The script behind a line whose command was sent, given what was received for it. -/
def afterExchange (c : Connection) (command : Command) (s : Script) : Script :=
  let s' := c.afterReceive (s.afterSend command.encode)
  { s' with
    warnings := s'.warnings ++
      c.exchangeWarnings command (c.received (ReadEvent.brings c.capacity s.reads.head?)) }

theorem afterExchange_of_ok {c : Connection} {command : Command} {s : Script} {response : Response}
    (h : c.received (ReadEvent.brings c.capacity s.reads.head?) = .ok response) :
    c.afterExchange command s = c.afterReceive (s.afterSend command.encode) := by
  simp only [afterExchange, h, exchangeWarnings, List.append_nil]

section HandleLine

variable {c : Connection} {line : String} {command : Command} {s : Script}

/-- A blank line is passed over, on every link. -/
theorem handleLine_of_blank {m : Type → Type} [Monad m] [Link m] (hline : Text.strip line = "") :
    (c.handleLine line : m (Option LineOutcome)) = pure none := by
  unfold handleLine
  rw [if_pos hline]

theorem run_handleLine_of_invalid {fault : InputFault} (hblank : Text.strip line ≠ "")
    (hline : Command.parse (Text.strip line) = .error fault) :
    (c.handleLine line : StateM Script (Option LineOutcome)).run s =
      (some (.invalidInput fault), s) := by
  unfold handleLine
  rw [if_neg hblank, hline]
  rfl

/-- A line that says a command is an exchange, and the fault of the exchange is its answer. -/
theorem run_handleLine_of_command (hline : Command.ofLine? line = some command) :
    (c.handleLine line : StateM Script (Option LineOutcome)).run s =
      match (c.roundTrip command : StateM Script (Except Fault (Response × Nat))).run s with
      | (.ok (response, latency), s') => (some (.reply response.outcome latency), s')
      | (.error fault, s') =>
        (some (.communicationError fault), s'.warn (c.failureWarning command fault)) := by
  have hblank : Text.strip line ≠ "" := by
    intro h
    rw [Command.ofLine?_of_blank h] at hline
    cases hline
  unfold handleLine
  rw [if_neg hblank, Command.ofLine?_eq_some_iff.mp hline]
  show StateT.run (c.roundTrip command >>= _) s = _
  rw [StateT.run_bind]
  obtain ⟨_ | ⟨response, latency⟩, s'⟩ :=
    (c.roundTrip command : StateM Script (Except Fault (Response × Nat))).run s
  · rfl
  · rfl

/-- The command fails on its way. -/
theorem run_handleLine_of_unsent {fault : IOFault} (hline : Command.ofLine? line = some command)
    (hsend : s.delivery command.encode = .error fault) :
    (c.handleLine line : StateM Script (Option LineOutcome)).run s =
      (some (.communicationError (.io fault)),
        (s.afterSend command.encode).warn (c.failureWarning command (.io fault))) := by
  rw [run_handleLine_of_command hline, run_roundTrip_of_error hsend]

/-- The command is sent, and what one read brings is the answer. -/
theorem run_handleLine_of_sent (hline : Command.ofLine? line = some command)
    (hsend : s.delivery command.encode = .ok ()) :
    (c.handleLine line : StateM Script (Option LineOutcome)).run s =
      (some (.ofReceived s.delay (c.received (ReadEvent.brings c.capacity s.reads.head?))),
        c.afterExchange command s) := by
  rw [run_handleLine_of_command hline, run_roundTrip_of_ok hsend]
  rcases hreceived : c.received (ReadEvent.brings c.capacity s.reads.head?) with fault | response
  · rw [afterExchange, hreceived]
    rfl
  · rw [afterExchange_of_ok hreceived]
    rfl

end HandleLine

/-- What comes of one line. -/
def answer (c : Connection) (line : String) (s : Script) : Option LineOutcome :=
  ((c.handleLine line : StateM Script (Option LineOutcome)).run s).1

/-- The script behind one line. -/
def afterLine (c : Connection) (line : String) (s : Script) : Script :=
  ((c.handleLine line : StateM Script (Option LineOutcome)).run s).2

section AfterLine

variable {c : Connection} {line : String} {command : Command} {s : Script}

/-- A line that says no command does nothing to the link. -/
theorem afterLine_of_none (hline : Command.ofLine? line = none) : c.afterLine line s = s := by
  unfold afterLine
  by_cases hblank : Text.strip line = ""
  · rw [handleLine_of_blank hblank]
    rfl
  · unfold Command.ofLine? at hline
    rcases hparse : Command.parse (Text.strip line) with fault | command
    · rw [run_handleLine_of_invalid hblank hparse]
    · rw [hparse] at hline
      cases hline

theorem afterLine_of_unsent {fault : IOFault} (hline : Command.ofLine? line = some command)
    (hsend : s.delivery command.encode = .error fault) :
    c.afterLine line s =
      (s.afterSend command.encode).warn (c.failureWarning command (.io fault)) := by
  rw [afterLine, run_handleLine_of_unsent hline hsend]

theorem afterLine_of_sent (hline : Command.ofLine? line = some command)
    (hsend : s.delivery command.encode = .ok ()) :
    c.afterLine line s = c.afterExchange command s := by
  rw [afterLine, run_handleLine_of_sent hline hsend]

end AfterLine

/-- All that a line can do to the link: nothing, a sending that fails, or an exchange. -/
theorem afterLine_cases (c : Connection) (line : String) (s : Script) :
    (Command.ofLine? line = none ∧ c.afterLine line s = s) ∨
      ∃ command, Command.ofLine? line = some command ∧
        ((∃ fault, s.delivery command.encode = .error fault ∧
            c.afterLine line s =
              (s.afterSend command.encode).warn (c.failureWarning command (.io fault))) ∨
          (s.delivery command.encode = .ok () ∧
            c.afterLine line s = c.afterExchange command s)) := by
  cases hline : Command.ofLine? line with
  | none => exact .inl ⟨rfl, afterLine_of_none hline⟩
  | some command =>
    refine .inr ⟨command, rfl, ?_⟩
    rcases hsend : s.delivery command.encode with fault | _
    · exact .inl ⟨fault, rfl, afterLine_of_unsent hline hsend⟩
    · exact .inr ⟨rfl, afterLine_of_sent hline hsend⟩

/-- How a script treats what does not fit, and how long its reads take, never changes. -/
theorem keepRest_afterLine (c : Connection) (line : String) (s : Script) :
    (c.afterLine line s).keepRest = s.keepRest ∧ (c.afterLine line s).delay = s.delay := by
  rcases c.afterLine_cases line s with ⟨-, h⟩ | ⟨command, -, ⟨fault, -, h⟩ | ⟨-, h⟩⟩
  · rw [h]
    exact ⟨rfl, rfl⟩
  · rw [h]
    exact ⟨rfl, rfl⟩
  · rw [h]
    exact ⟨rfl, rfl⟩

/-! ## Sessions -/

section Polymorphic

variable {m : Type → Type} [Monad m] [Link m]

/-- Handles lines one after the other. -/
def handleLines (c : Connection) (lines : List String) : m (List (Option LineOutcome)) :=
  lines.mapM c.handleLine

end Polymorphic

/-- What comes of the lines of a session. -/
def answers (c : Connection) (lines : List String) (s : Script) : List (Option LineOutcome) :=
  ((c.handleLines lines : StateM Script (List (Option LineOutcome))).run s).1

/-- The script behind the lines of a session. -/
def afterLines (c : Connection) (lines : List String) (s : Script) : Script :=
  ((c.handleLines lines : StateM Script (List (Option LineOutcome))).run s).2

/-- Working through a list is working on its head and then on its tail. -/
theorem run_mapM_cons {σ α β : Type} (f : α → StateM σ β) (a : α) (as : List α) (s : σ) :
    ((a :: as).mapM f).run s =
      (((f a).run s).1 :: ((as.mapM f).run ((f a).run s).2).1,
        ((as.mapM f).run ((f a).run s).2).2) := by
  rw [List.mapM_cons]
  rfl

theorem run_handleLines_cons (c : Connection) (line : String) (lines : List String) (s : Script) :
    (c.handleLines (line :: lines) : StateM Script (List (Option LineOutcome))).run s =
      (c.answer line s :: c.answers lines (c.afterLine line s),
        c.afterLines lines (c.afterLine line s)) :=
  run_mapM_cons c.handleLine line lines s

@[simp] theorem afterLines_nil (c : Connection) (s : Script) : c.afterLines [] s = s := rfl

theorem afterLines_cons (c : Connection) (line : String) (lines : List String) (s : Script) :
    c.afterLines (line :: lines) s = c.afterLines lines (c.afterLine line s) := by
  unfold afterLines
  rw [run_handleLines_cons]
  rfl

theorem answers_cons (c : Connection) (line : String) (lines : List String) (s : Script) :
    c.answers (line :: lines) s = c.answer line s :: c.answers lines (c.afterLine line s) := by
  unfold answers
  rw [run_handleLines_cons]
  rfl

/-- Every line has its answer. -/
theorem length_answers (c : Connection) (lines : List String) (s : Script) :
    (c.answers lines s).length = lines.length := by
  induction lines generalizing s with
  | nil => rfl
  | cons line lines ih => rw [answers_cons, List.length_cons, List.length_cons, ih]

/-- A session goes on where it stands. -/
theorem afterLines_append (c : Connection) (lines later : List String) (s : Script) :
    c.afterLines (lines ++ later) s = c.afterLines later (c.afterLines lines s) := by
  induction lines generalizing s with
  | nil => rfl
  | cons line lines ih => rw [List.cons_append, afterLines_cons, afterLines_cons, ih]

/-- Each line works on the script that the lines before it have left. -/
theorem afterLines_take_succ (c : Connection) {lines : List String} {i : Nat} {line : String}
    (h : lines[i]? = some line) (s : Script) :
    c.afterLines (lines.take (i + 1)) s = c.afterLine line (c.afterLines (lines.take i) s) := by
  rw [List.take_add_one, h, afterLines_append, Option.toList_some, afterLines_cons, afterLines_nil]

/-- Each line is answered from the script that the lines before it have left. -/
theorem getElem?_answers (c : Connection) {lines : List String} {i : Nat} {line : String}
    (h : lines[i]? = some line) (s : Script) :
    (c.answers lines s)[i]? = some (c.answer line (c.afterLines (lines.take i) s)) := by
  induction lines generalizing i s with
  | nil => cases h
  | cons first lines ih =>
    rw [answers_cons]
    cases i with
    | zero =>
      cases h
      rfl
    | succ i =>
      rw [List.getElem?_cons_succ, List.take_succ_cons, afterLines_cons]
      exact ih h _

/-- What every line keeps, a session keeps. -/
theorem afterLines_induction {c : Connection} {motive : Script → Prop} {s : Script}
    (start : motive s) (lines : List String)
    (step : ∀ line ∈ lines, ∀ s, motive s → motive (c.afterLine line s)) :
    motive (c.afterLines lines s) := by
  induction lines generalizing s with
  | nil => exact start
  | cons line lines ih =>
    obtain ⟨hline, hlines⟩ := List.forall_mem_cons.mp step
    rw [afterLines_cons]
    exact ih (hline s start) hlines

theorem keepRest_afterLines (c : Connection) (lines : List String) (s : Script) :
    (c.afterLines lines s).keepRest = s.keepRest ∧ (c.afterLines lines s).delay = s.delay := by
  refine afterLines_induction (motive := fun t => t.keepRest = s.keepRest ∧ t.delay = s.delay)
    ⟨rfl, rfl⟩ lines ?_
  intro line _ t ht
  have hline := keepRest_afterLine c line t
  exact ⟨hline.1.trans ht.1, hline.2.trans ht.2⟩

end Connection
end KeyValueClient
