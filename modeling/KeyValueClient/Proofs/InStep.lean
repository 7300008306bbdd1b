import KeyValueClient.Proofs.Outgoing
import KeyValueClient.Proofs.Shown

/-!
# Replies in step with their commands

A stream of bytes does not keep messages apart.  What did not fit one read is brought by the next,
and a read may bring the end of one response together with the beginning of another.  The client
makes one read for each command and puts nothing together, so the reads of a session cut the stream
into chunks, one for each line (`chunks`, `flatten_chunks_append_unread`), and every line is
answered from its own chunk.

A line is *in step* when the chunks of the lines before it are, together, the responses to these
lines.  **Then it is answered with its own response or with a failure** (`reply_in_step`): its chunk
is a beginning of its response and of whatever stands behind that, and no object is the beginning of
another.  The first line is in step.  A later one need not be, and then it can be answered from a
piece of an earlier response, or with a later one (`replies_out_of_step`).
-/

namespace KeyValueClient

open MessagePack (denotes_encode)
open Link (Script ReadEvent)

/-! ## Streams -/

namespace Link.Script

/-- The script plays a stream of bytes: nothing is lost, and every event brings bytes. -/
structure Stream (s : Script) : Prop where
  keepRest : s.keepRest = true
  brings : ∀ event ∈ s.reads, event.bytes ≠ []

/-- The bytes that have not been read. -/
def unread (s : Script) : Bytes := s.reads.flatMap ReadEvent.bytes

/-- The bytes that the next read brings. -/
def chunk (capacity : Nat) (s : Script) : Bytes :=
  match s.reads with
  | [] => []
  | event :: _ => event.bytes.take capacity

/-- On a stream no read fails. -/
theorem Stream.brings_eq {s : Script} (h : s.Stream) (capacity : Nat) :
    ReadEvent.brings capacity s.reads.head? = .ok (s.chunk capacity) := by
  unfold chunk
  rcases hreads : s.reads with _ | ⟨bytes | fault, later⟩
  · rfl
  · rfl
  · have hbytes := h.brings (.fail fault) (hreads ▸ List.mem_cons_self ..)
    exact absurd rfl hbytes

/-- On a stream a read takes its chunk off the front of the unread bytes, and leaves a stream. -/
theorem Stream.afterRead {s : Script} (h : s.Stream) (capacity : Nat) :
    (s.afterRead capacity).Stream ∧
      s.unread = s.chunk capacity ++ (s.afterRead capacity).unread := by
  have hafter : (∀ event ∈ s.readsAfter capacity, event.bytes ≠ []) ∧
      s.reads.flatMap ReadEvent.bytes =
        s.chunk capacity ++ (s.readsAfter capacity).flatMap ReadEvent.bytes := by
    have hbrings := h.brings
    unfold chunk
    rcases hreads : s.reads with _ | ⟨bytes | fault, later⟩
    · have hnil : s.readsAfter capacity = [] := by simp only [readsAfter, hreads, List.tail_nil]
      rw [hnil]
      exact ⟨List.forall_mem_nil _, rfl⟩
    · rw [hreads] at hbrings
      obtain ⟨-, hlater⟩ := List.forall_mem_cons.mp hbrings
      rw [readsAfter_of_keepRest h.keepRest hreads, List.flatMap_cons]
      by_cases hrest : bytes.drop capacity = []
      · -- the event is used up
        rw [if_pos hrest]
        refine ⟨hlater, ?_⟩
        show bytes ++ _ = bytes.take capacity ++ _
        rw [List.take_of_length_le (List.drop_eq_nil_iff.mp hrest)]
      · rw [if_neg hrest, List.flatMap_cons, ← List.append_assoc]
        refine ⟨List.forall_mem_cons.mpr ⟨hrest, hlater⟩, ?_⟩
        show bytes ++ _ = bytes.take capacity ++ bytes.drop capacity ++ _
        rw [List.take_append_drop]
    · have hbytes := hbrings (.fail fault) (hreads ▸ List.mem_cons_self ..)
      exact absurd rfl hbytes
  exact ⟨⟨h.keepRest, hafter.1⟩, hafter.2⟩

end Link.Script

/-! ## Responses at the front of a stream -/

namespace Response

/-- A chunk of a stream that begins with a response says this response or nothing. -/
theorem ofPayload_chunk {payload later chunk rest : Bytes} {decoded : Response}
    (h : ofPayload payload = .ok decoded) (hsplit : payload ++ later = chunk ++ rest) :
    (∃ fault, ofPayload chunk = .error fault) ∨ ofPayload chunk = .ok decoded := by
  unfold ofPayload at h ⊢
  cases hchunk : Value.ofPayload chunk with
  | error fault => exact .inl ⟨fault, rfl⟩
  | ok w =>
    cases hpayload : Value.ofPayload payload with
    | error fault =>
      rw [hpayload] at h
      cases h
    | ok v =>
      -- both begin with an object, and these objects stand at the front of the same bytes
      obtain ⟨p, p', hp, -, rfl⟩ := Value.exists_denotes_of_ofPayload hpayload
      obtain ⟨q, q', hq, -, rfl⟩ := Value.exists_denotes_of_ofPayload hchunk
      rw [List.append_assoc, List.append_assoc] at hsplit
      obtain ⟨-, rfl⟩ := hp.prefix_free hq hsplit
      rw [hpayload] at h
      exact .inr h

/-- A chunk that says anything has all the bytes of the response at its front. -/
theorem encode_prefix_of_ofPayload_chunk {r decoded : Response} {later chunk rest : Bytes}
    (hstorable : r.toValue.Storable) (hsplit : r.encode ++ later = chunk ++ rest)
    (h : ofPayload chunk = .ok decoded) : r.encode <+: chunk := by
  unfold ofPayload at h
  cases hchunk : Value.ofPayload chunk with
  | error fault =>
    rw [hchunk] at h
    cases h
  | ok w =>
    obtain ⟨q, q', hq, -, rfl⟩ := Value.exists_denotes_of_ofPayload hchunk
    rw [List.append_assoc] at hsplit
    obtain ⟨hencode, -⟩ := (denotes_encode hstorable).prefix_free hq hsplit
    rw [← hencode]
    exact List.prefix_append _ _

end Response

namespace Connection

/-! ## One line -/

section Line

variable {c : Connection} {line : String} {s : Script}

/-- On a stream a line is answered from the chunk that its read brings. -/
theorem answer_of_chunk (hstream : s.Stream) (hs : s.Obliging)
    (hline : (Command.ofLine? line).isSome) :
    c.answer line s =
      some (.ofReceived s.delay (c.received (.ok (s.chunk c.capacity)))) := by
  obtain ⟨command, hcommand⟩ := Option.isSome_iff_exists.mp hline
  rw [answer, run_handleLine_of_sent hcommand (hs.delivery _), hstream.brings_eq]

/-- A line takes its chunk off the stream, and leaves a stream. -/
theorem stream_afterLine (hstream : s.Stream) (hs : s.Obliging)
    (hline : (Command.ofLine? line).isSome) :
    (c.afterLine line s).Stream ∧
      s.unread = s.chunk c.capacity ++ (c.afterLine line s).unread := by
  obtain ⟨command, hcommand⟩ := Option.isSome_iff_exists.mp hline
  have hreads : (c.afterLine line s).reads = (s.afterRead c.capacity).reads := by
    rw [afterLine_of_sent hcommand (hs.delivery _)]
    rfl
  obtain ⟨⟨-, hbrings⟩, hunread⟩ := hstream.afterRead c.capacity
  refine ⟨⟨?_, ?_⟩, ?_⟩
  · rw [(keepRest_afterLine c line s).1, hstream.keepRest]
  · rw [hreads]
    exact hbrings
  · rw [hunread, Script.unread, Script.unread, hreads]

theorem obliging_afterLine (hs : s.Obliging) (hline : (Command.ofLine? line).isSome) :
    (c.afterLine line s).Obliging := by
  obtain ⟨command, hcommand⟩ := Option.isSome_iff_exists.mp hline
  exact (sameSending_afterLine hcommand).obliging (hs.afterSend command.encode)

/-- What comes of a chunk at the front of a stream that begins with a response. -/
theorem ofReceived_of_chunk {payload later chunk rest : Bytes} {decoded : Response} (delay : Nat)
    (h : Response.ofPayload payload = .ok decoded) (hsplit : payload ++ later = chunk ++ rest) :
    (∃ fault, LineOutcome.ofReceived delay (c.received (.ok chunk)) = .communicationError fault) ∨
      Response.ofPayload chunk = .ok decoded ∧
        LineOutcome.ofReceived delay (c.received (.ok chunk)) =
          .reply decoded.outcome delay := by
  unfold received
  by_cases hempty : chunk = []
  · exact .inl ⟨.closed c.peer, by simp only [if_pos hempty, LineOutcome.ofReceived]⟩
  · simp only [if_neg hempty]
    rcases Response.ofPayload_chunk h hsplit with ⟨fault, hfault⟩ | hok
    · rw [hfault]
      exact .inl ⟨.protocol fault, rfl⟩
    · rw [hok]
      exact .inr ⟨rfl, rfl⟩

/-- A line whose response is at the front of the stream fails or gets this response. -/
theorem answer_of_front {r decoded : Response} {later : Bytes} (hstream : s.Stream)
    (hs : s.Obliging) (hline : (Command.ofLine? line).isSome) (hproper : r.Proper)
    (hdecoded : Response.ofPayload r.encode = .ok decoded) (hfront : s.unread = r.encode ++ later) :
    (∃ fault, c.answer line s = some (.communicationError fault)) ∨
      c.answer line s = some (.reply decoded.outcome s.delay) ∧
        (r.toValue.Storable →
          r.encode <+: s.chunk c.capacity ∧ decoded.outcome = r.outcome) := by
  -- what has not been read begins with the response, and with the chunk
  obtain ⟨-, hsplit⟩ := stream_afterLine (c := c) hstream hs hline
  rw [hfront] at hsplit
  rw [answer_of_chunk hstream hs hline]
  rcases ofReceived_of_chunk (c := c) s.delay hdecoded hsplit with ⟨fault, hfault⟩ | ⟨hread, hreply⟩
  · exact .inl ⟨fault, congrArg some hfault⟩
  · refine .inr ⟨congrArg some hreply, ?_⟩
    intro hstorable
    exact ⟨Response.encode_prefix_of_ofPayload_chunk hstorable hsplit hread,
      Response.outcome_of_ofPayload_encode hproper hstorable hdecoded⟩

end Line

/-! ## Sessions -/

/-- What the reads of a session bring, if every line says a command and is sent. -/
def chunks (c : Connection) : List String → Script → List Bytes
  | [], _ => []
  | line :: lines, s => s.chunk c.capacity :: chunks c lines (c.afterLine line s)

section Session

variable (c : Connection) {lines : List String} {s : Script} {i : Nat}

theorem length_chunks : (c.chunks lines s).length = lines.length := by
  induction lines generalizing s with
  | nil => rfl
  | cons line lines ih => rw [chunks, List.length_cons, List.length_cons, ih]

theorem take_chunks : (c.chunks lines s).take i = c.chunks (lines.take i) s := by
  induction lines generalizing i s with
  | nil => simp only [chunks, List.take_nil]
  | cons line lines ih =>
    cases i with
    | zero => rfl
    | succ i => rw [chunks, List.take_succ_cons, List.take_succ_cons, chunks, ih]

theorem getElem?_chunks {line : String} (h : lines[i]? = some line) :
    (c.chunks lines s)[i]? = some ((c.afterLines (lines.take i) s).chunk c.capacity) := by
  induction lines generalizing i s with
  | nil => cases h
  | cons first lines ih =>
    cases i with
    | zero => rfl
    | succ i => rw [chunks, List.getElem?_cons_succ, List.take_succ_cons, afterLines_cons, ih h]

/-- **The reads of a session cut the stream into chunks**, one behind the other. -/
theorem flatten_chunks_append_unread (hstream : s.Stream) (hs : s.Obliging)
    (hlines : ∀ line ∈ lines, (Command.ofLine? line).isSome) :
    (c.chunks lines s).flatten ++ (c.afterLines lines s).unread = s.unread := by
  induction lines generalizing s with
  | nil => rfl
  | cons line lines ih =>
    obtain ⟨hline, hlater⟩ := List.forall_mem_cons.mp hlines
    obtain ⟨hnext, hunread⟩ := stream_afterLine (c := c) hstream hs hline
    rw [chunks, List.flatten_cons, afterLines_cons, List.append_assoc,
      ih hnext (obliging_afterLine hs hline) hlater, hunread]

/-- When the chunks so far are, together, the responses so far, the other responses are unread. -/
theorem unread_of_chunks_eq {responses : List Response} (hstream : s.Stream) (hs : s.Obliging)
    (hlines : ∀ line ∈ lines, (Command.ofLine? line).isSome)
    (hunread : s.unread = responses.flatMap Response.encode)
    (h : ((c.chunks lines s).take i).flatten = (responses.take i).flatMap Response.encode) :
    (c.afterLines (lines.take i) s).unread = (responses.drop i).flatMap Response.encode := by
  have hearlier : ∀ line ∈ lines.take i, (Command.ofLine? line).isSome := fun line hmem =>
    hlines line (List.mem_of_mem_take hmem)
  have hcut := flatten_chunks_append_unread c hstream hs hearlier
  rw [← take_chunks, h, hunread] at hcut
  conv_rhs at hcut => rw [← List.take_append_drop i responses, List.flatMap_append]
  exact List.append_cancel_left hcut

theorem stream_afterLines (hstream : s.Stream) (hs : s.Obliging)
    (hlines : ∀ line ∈ lines, (Command.ofLine? line).isSome) :
    (c.afterLines lines s).Stream ∧ (c.afterLines lines s).Obliging := by
  refine afterLines_induction (motive := fun t => t.Stream ∧ t.Obliging) ⟨hstream, hs⟩ lines ?_
  intro line hline t ⟨htstream, ht⟩
  exact ⟨(stream_afterLine htstream ht (hlines line hline)).1,
    obliging_afterLine ht (hlines line hline)⟩

end Session

/-- **A line in step is answered with its own response or with a failure.**  Let a stream of bytes
carry responses that are proper and can be read, cut in any way, and let every line of a session say
a command that is sent.  The reads cut the stream into one chunk for each line, and each line is
answered from its chunk alone.  If the chunks before a line are, together, the responses before it,
then the line fails or gets the reply that the bytes of its own response say.  With lengths that can
be stored, this reply has the outcome of the response and is read from a chunk with all of its
bytes. -/
theorem reply_in_step (c : Connection) (lines : List String) (responses : List Response)
    (s : Script) (hstream : s.Stream) (hs : s.Obliging)
    (hlines : ∀ line ∈ lines, (Command.ofLine? line).isSome)
    (hresponses : ∀ r ∈ responses, r.Proper ∧ ∃ decoded, Response.ofPayload r.encode = .ok decoded)
    (hunread : s.unread = responses.flatMap Response.encode) :
    let chunks := c.chunks lines s
    let answers := c.answers lines s
    chunks.length = lines.length ∧
      chunks.flatten ++ (c.afterLines lines s).unread = responses.flatMap Response.encode ∧
      ∀ (i : Nat) (r : Response) (chunk : Bytes), responses[i]? = some r → chunks[i]? = some chunk →
        answers[i]? = some (some (.ofReceived s.delay (c.received (.ok chunk)))) ∧
        ((chunks.take i).flatten = (responses.take i).flatMap Response.encode →
          (∃ fault, answers[i]? = some (some (.communicationError fault))) ∨
          ∃ decoded, Response.ofPayload r.encode = .ok decoded ∧
            answers[i]? = some (some (.reply decoded.outcome s.delay)) ∧
            (r.toValue.Storable → r.encode <+: chunk ∧ decoded.outcome = r.outcome)) := by
  intro chunks answers
  have hchunks := flatten_chunks_append_unread c hstream hs hlines
  refine ⟨length_chunks c, hchunks.trans hunread, ?_⟩
  intro i r chunk hr hchunk
  have hi : i < lines.length := by
    rw [← length_chunks c (s := s)]
    exact (List.getElem?_eq_some_iff.mp hchunk).1
  obtain ⟨line, hline⟩ : ∃ line, lines[i]? = some line := ⟨lines[i], List.getElem?_eq_getElem hi⟩
  have hcommand := hlines line (List.mem_of_getElem? hline)
  have hearlier : ∀ line ∈ lines.take i, (Command.ofLine? line).isSome := fun line hmem =>
    hlines line (List.mem_of_mem_take hmem)
  obtain ⟨hstream', hs'⟩ := stream_afterLines c hstream hs hearlier
  have hdelay := (keepRest_afterLines c (lines.take i) s).2
  have hanswer := getElem?_answers c hline s
  have hown : chunk = (c.afterLines (lines.take i) s).chunk c.capacity :=
    Option.some_inj.mp (hchunk.symm.trans (getElem?_chunks c hline))
  subst hown
  refine ⟨?_, ?_⟩
  · rw [answer_of_chunk hstream' hs' hcommand, hdelay] at hanswer
    exact hanswer
  · intro hstep
    have hfront : (c.afterLines (lines.take i) s).unread =
        r.encode ++ (responses.drop (i + 1)).flatMap Response.encode := by
      obtain ⟨hlt, hget⟩ := List.getElem?_eq_some_iff.mp hr
      rw [unread_of_chunks_eq c hstream hs hlines hunread hstep, List.drop_eq_getElem_cons hlt,
        hget, List.flatMap_cons]
    obtain ⟨hproper, decoded, hdecoded⟩ := hresponses r (List.mem_of_getElem? hr)
    rcases answer_of_front (c := c) hstream' hs' hcommand hproper hdecoded hfront with
      ⟨fault, hfault⟩ | ⟨hreply, hwhole⟩
    · exact .inl ⟨fault, by rw [hanswer, hfault]⟩
    · exact .inr ⟨decoded, hdecoded, by rw [hanswer, hreply, hdelay], hwhole⟩

/-- Two responses come in one piece, and the first fits the capacity exactly.  So the second line is
in step. -/
theorem reply_in_step_of_exact_fit :
    let c : Connection := ⟨"peer", 18⟩
    let lines := ["GET a", "GET b"]
    let first := Response.withValue (.uint 5)
    let second := Response.unexpected (.array [.nil, .uint 300])
    let s : Script := { keepRest := true, reads := [.data (first.encode ++ second.encode)] }
    s.Stream ∧ s.Obliging ∧ (∀ line ∈ lines, (Command.ofLine? line).isSome) ∧
      (∀ r ∈ [first, second], r.Proper ∧ ∃ decoded, Response.ofPayload r.encode = .ok decoded) ∧
      s.unread = [first, second].flatMap Response.encode ∧
      ((c.chunks lines s).take 1).flatten = first.encode ∧ second.toValue.Storable ∧
      ((∃ fault, (c.answers lines s)[1]? = some (some (.communicationError fault))) ∨
        (c.answers lines s)[1]? = some (some (.reply second.outcome 0))) := by
  intro c lines first second s
  have hstream : s.Stream := ⟨rfl, by decide⟩
  have hobliging : s.Obliging := ⟨List.forall_mem_nil _, List.forall_mem_nil _⟩
  have hlines : ∀ line ∈ lines, (Command.ofLine? line).isSome := by decide
  have hresponses : ∀ r ∈ [first, second],
      r.Proper ∧ ∃ decoded, Response.ofPayload r.encode = .ok decoded :=
    List.forall_mem_cons.mpr ⟨⟨trivial, _, rfl⟩, List.forall_mem_singleton.mpr ⟨rfl, _, rfl⟩⟩
  have hstorable : second.toValue.Storable :=
    .array (by decide) (List.forall_mem_cons.mpr ⟨.nil, List.forall_mem_singleton.mpr (.uint 300)⟩)
  have hfit : ((c.chunks lines s).take 1).flatten = first.encode := by decide
  obtain ⟨-, -, hreply⟩ :=
    reply_in_step c lines [first, second] s hstream hobliging hlines hresponses rfl
  obtain ⟨-, hstep⟩ := hreply 1 second second.encode rfl rfl
  refine ⟨hstream, hobliging, hlines, hresponses, rfl, hfit, hstorable, ?_⟩
  rcases hstep rfl with hfailure | ⟨decoded, -, hanswer, hown⟩
  · exact .inl hfailure
  · rw [(hown hstorable).2] at hanswer
    exact .inr hanswer

/-- Two cuttings of the same three responses.  A read that stops before the last byte of the first
response leaves this byte for the second line, which is answered with it.  A read that brings the
first two responses leaves the third for the second line. -/
theorem replies_out_of_step :
    let c : Connection := ⟨"peer", 4096⟩
    let lines := ["GET a", "GET b", "GET c"]
    let first := Response.withValue (.int 5)
    let second := Response.withMessage "two"
    let third := Response.withMessage "three"
    let responses := [first, second, third]
    let short : Script :=
      { keepRest := true
        reads := [.data first.encode.dropLast, .data [5], .data second.encode, .data third.encode] }
    let long : Script :=
      { keepRest := true
        reads := [.data (first.encode ++ second.encode), .data third.encode] }
    (∀ s ∈ [short, long],
      s.Stream ∧ s.Obliging ∧ s.unread = responses.flatMap Response.encode) ∧
      (∀ line ∈ lines, (Command.ofLine? line).isSome) ∧
      (∀ r ∈ responses, r.Proper ∧ ∃ decoded, Response.ofPayload r.encode = .ok decoded) ∧
      second.outcome = .message "two" ∧
      (c.answers lines short)[1]? = some (some (.reply (.unexpected "5") 0)) ∧
      (c.answers lines long)[1]? = some (some (.reply (.message "three") 0)) := by
  intro c lines first second third responses short long
  have hfirst : first.Proper ∧ ∃ decoded, Response.ofPayload first.encode = .ok decoded :=
    ⟨trivial, _, rfl⟩
  have hsecond : second.Proper ∧ ∃ decoded, Response.ofPayload second.encode = .ok decoded :=
    ⟨trivial, _, rfl⟩
  have hthird : third.Proper ∧ ∃ decoded, Response.ofPayload third.encode = .ok decoded :=
    ⟨trivial, _, rfl⟩
  have hshort : short.Stream ∧ short.Obliging ∧ short.unread = responses.flatMap Response.encode :=
    ⟨⟨rfl, by decide⟩, ⟨List.forall_mem_nil _, List.forall_mem_nil _⟩, rfl⟩
  have hlong : long.Stream ∧ long.Obliging ∧ long.unread = responses.flatMap Response.encode :=
    ⟨⟨rfl, by decide⟩, ⟨List.forall_mem_nil _, List.forall_mem_nil _⟩, rfl⟩
  have hpiece : c.answer "GET b" (c.afterLines ["GET a"] short) =
      some (.reply (.unexpected "5") 0) := by decide
  have hlater : c.answer "GET b" (c.afterLines ["GET a"] long) =
      some (.reply (.message "three") 0) := by decide
  refine ⟨?_, by decide, ?_, rfl, (getElem?_answers c rfl short).trans (congrArg some hpiece),
    (getElem?_answers c rfl long).trans (congrArg some hlater)⟩
  · exact List.forall_mem_cons.mpr ⟨hshort, List.forall_mem_singleton.mpr hlong⟩
  · exact List.forall_mem_cons.mpr
      ⟨hfirst, List.forall_mem_cons.mpr ⟨hsecond, List.forall_mem_singleton.mpr hthird⟩⟩

end Connection
end KeyValueClient
