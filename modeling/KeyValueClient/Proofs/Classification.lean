import KeyValueClient.Proofs.Shown

/-!
# Replies and their classes

A reply is classified by its first status.  Writing the class as a value and classifying that value
gives the class again: what the classification drops is dropped the first time.  So the classes are
the fixed points, and they are known.  Every success and every failure is one, whatever values it
carries, for its own entries come first and have names of their own.  An unexpected reply is one
exactly when it has no status that is known (`Response.ofValue_toValue_eq_self_iff`); with one it
would be classified otherwise.

`Value.HasStatus` says that a value has a status that is known, in terms of the entries of the map:
the first key that reads as `status` has a value that reads as the text of a status.

**Classes survive the wire** (`Response.classes_are_fixed`): a response that classifies as itself is
read back from its bytes, with canonical values.
-/

namespace KeyValueClient

namespace Value

/-- A map holds a value under a name: the value of the first entry whose key reads as the name. -/
def Holds (raw : Value) (name : String) (v : Value) : Prop :=
  ∃ before key after, raw = .map (before ++ (key, v) :: after) ∧ key.asText? = some name ∧
    ∀ entry ∈ before, entry.1.asText? ≠ some name

theorem get?_eq_some_iff {raw v : Value} {name : String} :
    raw.get? name = some v ↔ raw.Holds name v := by
  unfold get? Holds
  cases raw with
  | map entries =>
    simp only [asMap?, Option.bind_some, lookup, Option.map_eq_some_iff,
      List.find?_eq_some_iff_append]
    constructor
    · rintro ⟨⟨key, _⟩, ⟨hkey, before, after, rfl, hbefore⟩, rfl⟩
      exact ⟨before, key, after, rfl, by simpa using hkey, by simpa using hbefore⟩
    · rintro ⟨before, key, after, heq, hkey, hbefore⟩
      cases heq
      exact ⟨(key, v), ⟨by simpa using hkey, before, after, rfl, by simpa using hbefore⟩, rfl⟩
  | _ => simp [asMap?]

/-- A value is a map with a status that is known. -/
def HasStatus (raw : Value) : Prop :=
  ∃ v status, raw.Holds "status" v ∧ v.asText? = some (Status.text status)

end Value

theorem Status.ofValue?_eq_some_iff {v : Value} {status : Status} :
    Status.ofValue? v = some status ↔ v.asText? = some status.text := by
  unfold Status.ofValue?
  cases v.asText? with
  | none => simp
  | some text =>
    rw [Option.some_inj]
    constructor
    · intro h
      have hfound := List.find?_some (p := fun status : Status => status.text == text) h
      exact (eq_of_beq hfound).symm
    · rintro rfl
      cases status <;> decide

namespace Response

/-- An unexpected reply can be told from others exactly when it has no status that is known. -/
theorem proper_unexpected_iff {raw : Value} :
    (Response.unexpected raw).Proper ↔ ¬ raw.HasStatus := by
  have hstatus : (∃ status, (raw.get? "status").bind Status.ofValue? = some status) ↔
      raw.HasStatus := by
    simp only [Option.bind_eq_some_iff, Value.get?_eq_some_iff, Status.ofValue?_eq_some_iff,
      Value.HasStatus]
    exact exists_comm
  rw [← hstatus, ← Option.isSome_iff_exists, Bool.not_eq_true, Option.isSome_eq_false_iff,
    Option.isNone_iff_eq_none]
  exact Iff.rfl

/-- What a value is classified as can be told from others. -/
theorem proper_ofValue (raw : Value) : (ofValue raw).Proper := by
  unfold ofValue
  split
  · trivial
  · trivial
  · assumption

theorem ofValue_toValue_eq_self_iff (r : Response) : ofValue r.toValue = r ↔ r.Proper := by
  constructor
  · intro h
    rw [← h]
    exact proper_ofValue r.toValue
  · exact ofValue_toValue

/-- **The classes of replies are the responses that classify as themselves.**  Classifying a class
gives the class; all successes and failures are classes, and an unexpected reply is one exactly when
it has no status that is known.  A response that classifies as itself, whose lengths can be stored
and that is not nested too deep, is read back from its bytes with canonical values, whatever stands
behind it. -/
theorem classes_are_fixed :
    (∀ raw, ofValue (ofValue raw).toValue = ofValue raw) ∧
    (∀ message value, ofValue (Response.ok message value).toValue = .ok message value) ∧
    (∀ message, ofValue (Response.error message).toValue = .error message) ∧
    (∀ raw, ofValue (Response.unexpected raw).toValue = .unexpected raw ↔ ¬ raw.HasStatus) ∧
    (∀ r : Response, ofValue r.toValue = r → r.toValue.Storable →
      r.toValue.nesting ≤ Value.nestingLimit →
      ∀ rest, ofPayload (r.encode ++ rest) = .ok r.canonical) := by
  refine ⟨?_, ?_, ?_, ?_, ?_⟩
  · intro raw
    exact ofValue_toValue (proper_ofValue raw)
  · intro message value
    exact ofValue_toValue (r := .ok message value) trivial
  · intro message
    exact ofValue_toValue (r := .error message) trivial
  · intro raw
    rw [ofValue_toValue_eq_self_iff, proper_unexpected_iff]
  · intro r hfixed hstorable hnesting rest
    rw [ofPayload_of_proper_append ((ofValue_toValue_eq_self_iff r).mp hfixed) hstorable,
      if_pos hnesting]

/-- A success whose message looks like a failure and whose value is nil is read back, with a number
of the message held in the other range and a byte behind it that begins no object. -/
theorem classes_are_fixed_at_success :
    let message := Value.map [(.str "status", .str "ERROR"), (.uint 7, .bin [0xff])]
    let r := Response.ok (some message) (some .nil)
    ofValue r.toValue = r ∧ r.toValue.Storable ∧ r.toValue.nesting ≤ Value.nestingLimit ∧
      ofPayload (r.encode ++ [0xc1]) =
        .ok (.ok (some (.map [(.str "status", .str "ERROR"), (.int 7, .bin [0xff])]))
          (some .nil)) := by
  intro message r
  obtain ⟨-, hok, -, -, hread⟩ := classes_are_fixed
  have hmessage : message.Storable :=
    .map_of_forall (by decide) (List.forall_mem_cons.mpr ⟨⟨.str (by decide), .str (by decide)⟩,
      List.forall_mem_singleton.mpr ⟨.uint 7, .bin (by decide)⟩⟩)
  have hstorable : r.toValue.Storable :=
    .map_of_forall (by decide) (List.forall_mem_cons.mpr ⟨⟨.str (by decide), .str (by decide)⟩,
      List.forall_mem_cons.mpr ⟨⟨.str (by decide), hmessage⟩,
        List.forall_mem_singleton.mpr ⟨.str (by decide), .nil⟩⟩⟩)
  have hnesting : r.toValue.nesting ≤ Value.nestingLimit := by decide
  have hfixed := hok (some message) (some .nil)
  exact ⟨hfixed, hstorable, hnesting, hread r hfixed hstorable hnesting [0xc1]⟩

end Response
end KeyValueClient
