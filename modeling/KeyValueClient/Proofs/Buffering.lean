import KeyValueClient.Proofs.Lines

/-!
# Reading through a buffer

A client may read into one buffer all the time, without clearing it.  Then what a read brought
stands at the front of the buffer, and what earlier reads have left stands behind it.  This is a
link again (`Buffered`), over any link, and the same client runs on it.

The client takes as many bytes off the buffer as the read has brought, and these are the bytes of
the read (`take_overwrite`).  So **a session does the same with a buffer as without, whatever the
buffer holds** (`forgets_handleLines`): the contents of the buffer are not part of what a client
knows.

The proof follows the client call by call.  `Forgets x y` says that `x` does with any buffer what
`y` does without; the calls of a link have this property, and it passes to sequences of calls.
-/

namespace KeyValueClient
namespace Link

/-- A link whose reads go through a buffer. -/
def Buffered (m : Type → Type) (α : Type) : Type := StateT Bytes m α

namespace Buffered

variable {m : Type → Type} [Monad m]

instance : Monad (Buffered m) := inferInstanceAs (Monad (StateT Bytes m))

instance [LawfulMonad m] : LawfulMonad (Buffered m) :=
  inferInstanceAs (LawfulMonad (StateT Bytes m))

/-- The buffer when bytes have been read into it. -/
def overwrite (bytes buffer : Bytes) : Bytes := bytes ++ buffer.drop bytes.length

/-- What was read is found at the front of the buffer. -/
theorem take_overwrite (bytes buffer : Bytes) :
    (overwrite bytes buffer).take bytes.length = bytes := List.take_left

/-- A call that leaves the buffer alone. -/
def lift {α : Type} (call : m α) : Buffered m α := fun buffer => do
  let result ← call
  return (result, buffer)

instance [Link m] : Link (Buffered m) where
  read capacity := fun buffer => do
    match ← Link.read capacity with
    | .error fault => return (.error fault, buffer)
    | .ok bytes =>
      let buffer := overwrite bytes buffer
      return (.ok (buffer.take bytes.length), buffer)
  writeAll message := lift (Link.writeAll message)
  flush := lift Link.flush
  now := lift Link.now
  warn text := lift (Link.warn text)

/-- Runs with a buffer, and gives the buffer up. -/
def run {α : Type} (x : Buffered m α) (buffer : Bytes) : m α := Prod.fst <$> x buffer

/-- With any buffer, one does what the other does without. -/
def Forgets {α : Type} (x : Buffered m α) (y : m α) : Prop := ∀ buffer, x.run buffer = y

section Sequences

variable [LawfulMonad m] {α β : Type}

theorem Forgets.pure (a : α) : Forgets (Pure.pure a : Buffered m α) (Pure.pure a) := by
  intro buffer
  exact map_pure _ _

theorem Forgets.bind {x : Buffered m α} {y : m α} {f : α → Buffered m β} {g : α → m β}
    (hx : Forgets x y) (hf : ∀ a, Forgets (f a) (g a)) : Forgets (x >>= f) (y >>= g) := by
  intro buffer
  show Prod.fst <$> (x buffer >>= fun result => f result.1 result.2) = y >>= g
  have hrun : ∀ result : α × Bytes, Prod.fst <$> f result.1 result.2 = g result.1 :=
    fun result => hf result.1 result.2
  rw [map_bind, ← hx buffer, run, bind_map_left]
  exact congrArg _ (funext hrun)

theorem forgets_lift (call : m α) : Forgets (lift call) call := by
  intro buffer
  show Prod.fst <$> (call >>= fun result => Pure.pure (result, buffer)) = call
  rw [map_bind]
  simp only [map_pure]
  exact bind_pure call

end Sequences

variable [Link m] [LawfulMonad m]

theorem forgets_read (capacity : Nat) :
    Forgets (Link.read capacity : Buffered m (Except IOFault Bytes)) (Link.read capacity) := by
  intro buffer
  refine Eq.trans ?_ (bind_pure (Link.read capacity : m (Except IOFault Bytes)))
  refine (map_bind _ _ _).trans (congrArg _ (funext fun brought => ?_))
  cases brought with
  | error fault => exact map_pure _ _
  | ok bytes =>
    refine (map_pure _ _).trans ?_
    show Pure.pure (Except.ok ((overwrite bytes buffer).take bytes.length)) = _
    rw [take_overwrite]

theorem forgets_send (message : Bytes) :
    Forgets (Link.send message : Buffered m (Except IOFault Nat)) (Link.send message) := by
  unfold Link.send
  refine (forgets_lift _).bind fun result => ?_
  cases result with
  | error fault => exact .pure _
  | ok =>
    refine (forgets_lift _).bind fun result => ?_
    cases result with
    | error fault => exact .pure _
    | ok => exact .pure _

end Buffered
end Link

namespace Connection

open Link (Buffered)
open Link.Buffered (Forgets forgets_lift forgets_read forgets_send)

variable {m : Type → Type} [Monad m] [LawfulMonad m] [Link m]

theorem forgets_sendCommand (command : Command) :
    Forgets (send command : Buffered m (Except Fault Unit)) (send command) := by
  unfold send
  refine (forgets_send _).bind fun result => ?_
  cases result with
  | error fault => exact .pure _
  | ok => exact .pure _

theorem forgets_receive (c : Connection) :
    Forgets (c.receive : Buffered m (Except Fault Response)) c.receive := by
  unfold receive
  refine (forgets_read _).bind fun brought => ?_
  cases brought with
  | error fault => exact .pure _
  | ok payload =>
    by_cases hempty : payload = []
    · simp only [hempty, if_true]
      exact .pure _
    · simp only [hempty, if_false]
      by_cases hfull : payload.length = c.capacity
      · simp only [hfull, if_true]
        exact (forgets_lift _).bind fun _ => .pure _
      · simp only [hfull, if_false]
        exact .pure _

theorem forgets_roundTrip (c : Connection) (command : Command) :
    Forgets (c.roundTrip command : Buffered m (Except Fault (Response × Nat)))
      (c.roundTrip command) := by
  unfold roundTrip
  refine (forgets_lift _).bind fun start => (forgets_sendCommand command).bind fun sent => ?_
  cases sent with
  | error fault => exact .pure _
  | ok =>
    refine c.forgets_receive.bind fun received => ?_
    cases received with
    | error fault => exact .pure _
    | ok response => exact (forgets_lift _).bind fun stop => .pure _

theorem forgets_handleLine (c : Connection) (line : String) :
    Forgets (c.handleLine line : Buffered m (Option LineOutcome)) (c.handleLine line) := by
  unfold handleLine
  by_cases hblank : Text.strip line = ""
  · simp only [hblank, if_true]
    exact .pure _
  · simp only [hblank, if_false]
    cases Command.parse (Text.strip line) with
    | error fault => exact .pure _
    | ok command =>
      refine (c.forgets_roundTrip command).bind fun exchanged => ?_
      cases exchanged with
      | error fault => exact (forgets_lift _).bind fun _ => .pure _
      | ok result => exact .pure _

/-- **A session does the same with a buffer as without**, whatever the buffer holds. -/
theorem forgets_handleLines (c : Connection) (lines : List String) :
    Forgets (c.handleLines lines : Buffered m (List (Option LineOutcome)))
      (c.handleLines lines) := by
  unfold handleLines
  induction lines with
  | nil => exact .pure _
  | cons line lines ih =>
    rw [List.mapM_cons, List.mapM_cons]
    exact (c.forgets_handleLine line).bind fun answer => ih.bind fun answers => .pure _

end Connection
end KeyValueClient
