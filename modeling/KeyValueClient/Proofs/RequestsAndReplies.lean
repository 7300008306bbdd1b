import KeyValueClient.Proofs.Shown

/-!
# Requests are no replies

Nothing in a payload says whether it is a request or a reply: both are maps.  What tells them apart
is the names of their own entries.  A request has no entry under `status`, and a success or a
failure has none under `command` (`Command.get?_status_toValue`, `Response.get?_command_toValue`).
Entries count only at the top, so what a value or a message holds further down makes no difference.

A command is written straight from its fields and not as a tree.  The bytes are those of the tree
nevertheless, and the tree is what is read from them (`Command.valueOfPayload_encode_append`): so a
request that is sent back is an unexpected reply that has the same bytes, and never a success.

**A request is no reply, and a success or a failure is no request**
(`Response.requests_and_replies_are_apart`).
-/

namespace KeyValueClient
namespace Command

/-! ## Names that are missing -/

/-- A record has nothing under a name that no entry has. -/
theorem get?_record_eq_none {entries : List (String × Value)} {name : String}
    (h : ∀ entry ∈ entries, entry.1 ≠ name) : (Value.record entries).get? name = none := by
  induction entries with
  | nil => exact get?_record_nil name
  | cons entry entries ih =>
    obtain ⟨hfirst, hothers⟩ := List.forall_mem_cons.mp h
    rw [get?_record_cons, if_neg hfirst, ih hothers]

/-- A request has no status. -/
theorem get?_status_toValue (c : Command) : c.toValue.get? "status" = none := by
  have hother : "status" ∉ entryNames := by decide
  refine get?_record_eq_none fun entry hentry heq => hother ?_
  rw [← heq]
  exact mem_entryNames hentry

/-- A map without a name for a command is no request. -/
theorem ofValue_eq_noCommandField {raw : Value} (hmap : raw.asMap?.isSome)
    (hname : raw.get? "command" = none) : ofValue raw = .error .noCommandField := by
  have hnotNone : raw.asMap?.isNone = false := by
    rw [Option.isNone_eq_false_iff]
    exact hmap
  rw [ofValue, hnotNone, hname]
  rfl

/-! ## The tree of a request -/

/-- The value of a command is the map of its name and then of its fields. -/
theorem toValue_eq (c : Command) :
    c.toValue = .map ((.str "command", .str c.name.text) ::
      c.fields.map fun field => (.str field.1, field.2.toValue)) := by
  rw [toValue, entries, Value.record, List.map_cons, List.map_map]
  rfl

end Command

namespace Response

open Command (get?_record_eq_none)

/-! ## Replies -/

/-- The names under which successes and failures are written. -/
def entryNames : List String := ["status", "message", "value"]

theorem mem_entry {name : String} {value : Option Value} {e : String × Value}
    (h : e ∈ entry name value) : e.1 = name := by
  obtain ⟨v, -, rfl⟩ := List.mem_map.mp h
  rfl

/-- A success or a failure is a record of entries with these names. -/
theorem exists_toValue_eq_record {r : Response} (h : r.status?.isSome) :
    ∃ entries, r.toValue = .record entries ∧ ∀ e ∈ entries, e.1 ∈ entryNames := by
  cases r with
  | ok message value =>
    refine ⟨_, rfl, List.forall_mem_cons.mpr ⟨by decide, fun e he => ?_⟩⟩
    rcases List.mem_append.mp he with he | he
    · rw [mem_entry he]
      decide
    · rw [mem_entry he]
      decide
  | error message =>
    refine ⟨_, rfl, List.forall_mem_cons.mpr ⟨by decide, fun e he => ?_⟩⟩
    rw [mem_entry he]
    decide
  | unexpected raw => cases h

/-- A success or a failure names no command. -/
theorem get?_command_toValue {r : Response} (h : r.status?.isSome) :
    r.toValue.get? "command" = none := by
  obtain ⟨entries, hrecord, hnames⟩ := exists_toValue_eq_record h
  have hother : "command" ∉ entryNames := by decide
  rw [hrecord]
  refine get?_record_eq_none fun e he heq => hother ?_
  rw [← heq]
  exact hnames e he

/-- The canonical value of a success or of a failure says no command. -/
theorem command_ofValue_canonical {r : Response} (h : r.status?.isSome) :
    Command.ofValue r.toValue.canonical = .error .noCommandField := by
  obtain ⟨entries, hrecord, -⟩ := exists_toValue_eq_record h
  refine Command.ofValue_eq_noCommandField ?_ ?_
  · rw [Value.asMap?_canonical, hrecord]
    rfl
  · rw [Value.get?_canonical, get?_command_toValue h]
    rfl

/-- A success or a failure is refused as a request, whatever stands behind it. -/
theorem command_ofPayload_encode_append {r : Response} (h : r.status?.isSome)
    (hstorable : r.toValue.Storable) (rest : Bytes) :
    Command.ofPayload (r.encode ++ rest) =
      .error (if r.toValue.nesting ≤ Value.nestingLimit then .noCommandField
        else .malformed .tooDeep) := by
  have hread := Value.ofPayload_denotes_append (MessagePack.denotes_encode hstorable) rest
  rw [Value.nesting_canonical] at hread
  rw [Command.ofPayload, encode, hread]
  split
  · exact command_ofValue_canonical h
  · rfl

/-- A value without a status is an unexpected reply. -/
theorem ofValue_eq_unexpected {raw : Value} (h : raw.get? "status" = none) :
    ofValue raw = .unexpected raw := by
  rw [ofValue, h]
  rfl

/-- **Requests and replies are apart.**  The bytes of a command are those of the map of its name and
its fields, sent as an unexpected reply.  If its texts have lengths that can be stored, then this
map is read from them, and as a reply they are unexpected.  A success or a failure whose lengths can
be stored is no request, whatever its message and its value hold: it names no command, or it is
nested too deep to be read at all. -/
theorem requests_and_replies_are_apart :
    (∀ c : Command,
      let request := Value.map ((.str "command", .str c.name.text) ::
        c.fields.map fun field => (.str field.1, field.2.toValue))
      (Response.unexpected request).encode = c.encode ∧
        (c.Storable → ∀ rest,
          Value.ofPayload (c.encode ++ rest) = .ok request ∧
            ofPayload (c.encode ++ rest) = .ok (.unexpected request))) ∧
    (∀ r : Response, r.status?.isSome → r.toValue.Storable → ∀ rest,
      Command.ofPayload (r.encode ++ rest) =
        .error (if r.toValue.nesting ≤ Value.nestingLimit then .noCommandField
          else .malformed .tooDeep)) := by
  refine ⟨?_, ?_⟩
  · intro c request
    have hrequest : c.toValue = request := c.toValue_eq
    refine ⟨?_, ?_⟩
    · rw [c.encode_eq_encode_toValue, hrequest]
      rfl
    · intro hc rest
      have hread := Command.valueOfPayload_encode_append hc rest
      rw [hrequest] at hread
      refine ⟨hread, ?_⟩
      have hstatus := c.get?_status_toValue
      rw [hrequest] at hstatus
      rw [ofPayload, hread, Except.map, ofValue_eq_unexpected hstatus]
  · intro r hstatus hstorable rest
    exact command_ofPayload_encode_append hstatus hstorable rest

/-- A command with an expiry that takes three bytes, and a success whose value is the tree of a
request; each with a byte behind it that begins no object. -/
theorem requests_and_replies_are_apart_at_nested_request :
    let c := Command.set "clé" "" (some (-129))
    let request := Value.map [(.str "command", .str "SET"), (.str "key", .str "clé"),
      (.str "value", .str ""), (.str "exp", .int (-129))]
    let r := Response.ok (some (.str "command")) (some request)
    c.Storable ∧ (Response.unexpected request).encode = c.encode ∧
      Value.ofPayload (c.encode ++ [0xc1]) = .ok request ∧
      ofPayload (c.encode ++ [0xc1]) = .ok (.unexpected request) ∧
      r.status?.isSome ∧ r.toValue.Storable ∧
      Command.ofPayload (r.encode ++ [0xc1]) = .error .noCommandField := by
  intro c request r
  obtain ⟨hcommands, hreplies⟩ := requests_and_replies_are_apart
  have hstorable : c.Storable := by
    intro name text h
    simp only [c, Command.fields, List.mem_cons, List.not_mem_nil, or_false, Prod.mk.injEq,
      Command.FieldValue.text.injEq, reduceCtorEq, and_false] at h
    rcases h with ⟨-, rfl⟩ | ⟨-, rfl⟩
    · decide
    · decide
  have hrequest : request.Storable := hstorable.toValue
  have hreply : r.toValue.Storable :=
    .map_of_forall (by decide) (List.forall_mem_cons.mpr ⟨⟨.str (by decide), .str (by decide)⟩,
      List.forall_mem_cons.mpr ⟨⟨.str (by decide), .str (by decide)⟩,
        List.forall_mem_singleton.mpr ⟨.str (by decide), hrequest⟩⟩⟩)
  obtain ⟨hencode, hread⟩ := hcommands c
  obtain ⟨hvalue, hresponse⟩ := hread hstorable [0xc1]
  have hrefused := hreplies r rfl hreply [0xc1]
  have hnesting : r.toValue.nesting ≤ Value.nestingLimit := by decide
  rw [if_pos hnesting] at hrefused
  exact ⟨hstorable, hencode, hvalue, hresponse, rfl, hreply, hrefused⟩

end Response
end KeyValueClient
