import KeyValueClient.Proofs.Requests
import KeyValueClient.Proofs.Spelling

/-!
# Canonical values are shown alike

A value that was written comes back in canonical form: an integer may be held in the other range.
This makes no difference to people, because the canonical form is a respelling.  A canonical value
has the text of the value (`display_canonical`), reads as the same text and holds the canonical
values under the same names (`asText?_canonical`, `get?_canonical`).  So a canonical reply is
classified alike and has the same outcome (`Response.ofValue_canonical`,
`Response.outcome_canonical`).

Together with reading back: **a response that is read from its own bytes has the outcome of the
response that was written** (`Response.outcome_of_ofPayload_encode`).
-/

namespace KeyValueClient
namespace Value

/-! ## Texts -/

/-- **A canonical value has the text of the value.** -/
theorem display_canonical (v : Value) : v.canonical.display = v.display :=
  (respelled_canonical v).apply fun _ _ h => h.display

theorem asText?_canonical (v : Value) : v.canonical.asText? = v.asText? :=
  (respelled_canonical v).apply fun _ _ h => h.asText?

theorem displayText?_canonical (v : Value) : v.canonical.displayText? = v.displayText? :=
  (respelled_canonical v).apply fun _ _ h => h.displayText?

/-! ## Lookups -/

theorem asMap?_canonical (v : Value) :
    v.canonical.asMap? =
      v.asMap?.map (List.map fun entry => (entry.1.canonical, entry.2.canonical)) := by
  cases v with
  | nil | bool | int | float | str | bin | ext => rfl
  | uint n =>
    rcases canonical_uint n with h | ⟨i, -, h⟩
    · rw [h]
      rfl
    · rw [h]
      rfl
  | array items =>
    rw [canonical_array]
    rfl
  | map entries =>
    rw [canonical_map]
    rfl

/-- A name selects the same entry of a canonical map. -/
theorem get?_canonical (v : Value) (name : String) :
    v.canonical.get? name = (v.get? name).map canonical := by
  unfold get?
  rw [asMap?_canonical]
  cases v.asMap? with
  | none => rfl
  | some entries =>
    have hkey : ((fun entry : Value × Value => entry.1.asText? == some name) ∘
        fun entry : Value × Value => (entry.1.canonical, entry.2.canonical)) =
        fun entry => entry.1.asText? == some name := by
      funext entry
      rw [Function.comp_apply, asText?_canonical]
    rw [Option.map_some, Option.bind_some, Option.bind_some, lookup, lookup, List.find?_map, hkey,
      Option.map_map, Option.map_map]
    rfl

end Value

namespace Response

open Value (canonical)

/-! ## Responses -/

/-- A response with canonical values. -/
def canonical : Response → Response
  | .ok message value => .ok (message.map Value.canonical) (value.map Value.canonical)
  | .error message => .error (message.map Value.canonical)
  | .unexpected raw => .unexpected raw.canonical

theorem statusOfValue?_canonical (v : Value) :
    Status.ofValue? v.canonical = Status.ofValue? v := by
  unfold Status.ofValue?
  rw [Value.asText?_canonical]

/-- A canonical reply is classified alike. -/
theorem ofValue_canonical (raw : Value) : ofValue raw.canonical = (ofValue raw).canonical := by
  have hstatus : (raw.canonical.get? "status").bind Status.ofValue? =
      (raw.get? "status").bind Status.ofValue? := by
    rw [Value.get?_canonical]
    cases raw.get? "status" with
    | none => rfl
    | some status => exact statusOfValue?_canonical status
  unfold ofValue
  rw [hstatus, Value.get?_canonical, Value.get?_canonical]
  rcases (raw.get? "status").bind Status.ofValue? with _ | _ | _
  · rfl
  · rfl
  · rfl

theorem bind_displayText?_canonical (value : Option Value) :
    (value.map Value.canonical).bind Value.displayText? = value.bind Value.displayText? := by
  cases value with
  | none => rfl
  | some v => exact Value.displayText?_canonical v

theorem errorText?_canonical (message : Option Value) :
    errorText? (message.map Value.canonical) = errorText? message := by
  cases message with
  | none => rfl
  | some v => exact (Value.respelled_canonical v).apply fun _ _ h => h.errorText?

/-- **A canonical response has the outcome of the response.** -/
theorem outcome_canonical (r : Response) : r.canonical.outcome = r.outcome := by
  cases r with
  | ok message value =>
    rw [canonical, outcome, outcome, bind_displayText?_canonical, bind_displayText?_canonical]
  | error message => rw [canonical, outcome, outcome, errorText?_canonical]
  | unexpected raw => rw [canonical, outcome, outcome, Value.display_canonical]

/-- A response that can be told from others: an unexpected one has no status that is known. -/
def Proper : Response → Prop
  | .ok _ _ => True
  | .error _ => True
  | .unexpected raw => (raw.get? "status").bind Status.ofValue? = none

/-- In a record an entry that may be missing is tried before what stands behind it. -/
theorem get?_record_entry (name other : String) (value : Option Value)
    (later : List (String × Value)) :
    (Value.record (entry other value ++ later)).get? name =
      ((if other = name then value else none) <|> (Value.record later).get? name) := by
  cases value with
  | none =>
    rw [ite_self]
    rfl
  | some v =>
    show (Value.record ((other, v) :: later)).get? name = _
    rw [Command.get?_record_cons]
    by_cases hname : other = name
    · rw [if_pos hname, if_pos hname]
      rfl
    · rw [if_neg hname, if_neg hname]
      rfl

/-- A proper response is what its value says. -/
theorem ofValue_toValue {r : Response} (h : r.Proper) : ofValue r.toValue = r := by
  -- the last of the entries has nothing behind it
  have hentry : ∀ (name other : String) (value : Option Value),
      (Value.record (entry other value)).get? name = if other = name then value else none := by
    intro name other value
    have hlast := get?_record_entry name other value []
    rwa [List.append_nil, Command.get?_record_nil, Option.orElse_eq_orElse, Option.orElse_eq_or,
      Option.or_none] at hlast
  cases r with
  | ok message value =>
    have hstatus : (Response.ok message value).toValue.get? "status" = some (.str "OK") := by
      rw [toValue, Command.get?_record_cons, if_pos rfl]
      rfl
    have hmessage : (Response.ok message value).toValue.get? "message" = message := by
      rw [toValue, Command.get?_record_cons, if_neg (by decide), get?_record_entry, hentry,
        if_pos rfl, if_neg (by decide)]
      cases message with
      | none => rfl
      | some _ => rfl
    have hvalue : (Response.ok message value).toValue.get? "value" = value := by
      rw [toValue, Command.get?_record_cons, if_neg (by decide), get?_record_entry, hentry,
        if_neg (by decide), if_pos rfl]
      rfl
    rw [ofValue, hstatus, hmessage, hvalue]
    rfl
  | error message =>
    have hstatus : (Response.error message).toValue.get? "status" = some (.str "ERROR") := by
      rw [toValue, Command.get?_record_cons, if_pos rfl]
      rfl
    have hmessage : (Response.error message).toValue.get? "message" = message := by
      rw [toValue, Command.get?_record_cons, if_neg (by decide), hentry, if_pos rfl]
    rw [ofValue, hstatus, hmessage]
    rfl
  | unexpected raw =>
    show ofValue raw = .unexpected raw
    have hstatus : (raw.get? "status").bind Status.ofValue? = none := h
    rw [ofValue, hstatus]

/-- **A proper response is read back with canonical values**, whatever stands behind it, unless it
is nested too deep. -/
theorem ofPayload_of_proper_append {r : Response} (h : r.Proper) (hstorable : r.toValue.Storable)
    (rest : Bytes) :
    ofPayload (r.encode ++ rest) =
      if r.toValue.nesting ≤ Value.nestingLimit then .ok r.canonical
      else .error (.malformed .tooDeep) := by
  have hread := Value.ofPayload_denotes_append (MessagePack.denotes_encode hstorable) rest
  rw [Value.nesting_canonical] at hread
  rw [ofPayload, encode, hread]
  split
  · rw [Except.map, ofValue_canonical, ofValue_toValue h]
  · rfl

/-- **A response that is read from its own bytes has the outcome of the response that was
written**, if its parts have lengths that can be stored. -/
theorem outcome_of_ofPayload_encode {r decoded : Response} (h : r.Proper)
    (hstorable : r.toValue.Storable) (hread : ofPayload r.encode = .ok decoded) :
    decoded.outcome = r.outcome := by
  have hback := ofPayload_of_proper_append h hstorable []
  rw [List.append_nil, hread] at hback
  split at hback
  · cases hback
    exact outcome_canonical r
  · cases hback

end Response
end KeyValueClient
