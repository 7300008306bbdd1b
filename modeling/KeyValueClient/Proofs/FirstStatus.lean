import KeyValueClient.Proofs.Classification
import KeyValueClient.Proofs.Numerals

/-!
# What is shown is decided by the first status

A reply may hold several entries under `status`, and entries that are no text.  What a person is
told depends on one of them: the first whose key reads as `status`.  Its value reads as `OK`, as
`ERROR` or as neither, and the reply is a success, a failure or unexpected accordingly
(`Value.FirstStatus`).  A status that is known and stands behind one that is not known makes no
difference.

Of a success the message is shown if it says something, else the value if it does.  What says
nothing is listed by `Value.Silent`, and **what says something has a text**
(`Value.display_ne_empty`), so that no success is shown with an empty line.  A failure shows its
message under a rule of its own: only a message that is missing or nil is not shown.

**The outcome of every reply follows from its first status and the first entries under `message` and
`value`** (`Response.outcome_of_first_status`).
-/

namespace KeyValueClient

/-! ## Texts are not empty -/

theorem Decimal.positional_ne_empty (d : Decimal) : d.positional ≠ "" := by
  unfold positional
  split
  · simp
  · simp

theorem Binary64.text_ne_empty (x : Binary64) : x.text ≠ "" := by
  unfold text
  by_cases hnan : x.isNaN
  · simp [hnan]
  · by_cases hinf : x.exponentField = 2047
    · cases x.negative <;> simp [hnan, hinf]
    · by_cases hzero : x.isZero
      · cases x.negative <;> simp [hnan, hinf, hzero]
      · cases x.negative <;> simp [hnan, hinf, hzero, Decimal.positional_ne_empty]

namespace Value

/-- A value that says nothing: nil, the empty string, and no bytes at all. -/
inductive Silent : Value → Prop
  | nil : Silent .nil
  | str : Silent (.str "")
  | bin : Silent (.bin [])

/-- **What says something has a text.** -/
theorem display_ne_empty {v : Value} (h : ¬ v.Silent) : v.display ≠ "" := by
  cases v with
  | nil => exact absurd .nil h
  | bool b => cases b <;> simp [display]
  | int i =>
    rw [display, Ne, ← String.toList_eq_nil_iff]
    exact Text.toList_toString_ne_nil i.toInt
  | uint n => simp [display]
  | float x => exact x.text_ne_empty
  | str text =>
    rintro rfl
    exact h .str
  | bin bytes =>
    rw [display]
    cases htext : Utf8.decode? bytes with
    | none => simp
    | some text =>
      rintro rfl
      refine h ?_
      rw [Utf8.decode?_eq_some_iff.mp htext, Utf8.encode_eq_nil_iff.mpr rfl]
      exact .bin
  | array items => simp [display]
  | map entries => simp [display]
  | ext tag payload => simp [display]

theorem displayText?_of_silent {v : Value} (h : v.Silent) : v.displayText? = none := by
  cases h <;> rfl

theorem displayText?_of_not_silent {v : Value} (h : ¬ v.Silent) :
    v.displayText? = some v.display := by
  cases v with
  | nil => exact absurd .nil h
  | str text =>
    refine if_neg ?_
    rintro rfl
    exact h .str
  | bin bytes =>
    cases bytes with
    | nil => exact absurd .bin h
    | cons => rfl
  | _ => rfl

/-- A map shows a text under a name: it holds a value there that says something. -/
def Shows (raw : Value) (name text : String) : Prop :=
  ∃ v, raw.Holds name v ∧ ¬ v.Silent ∧ v.display = text

theorem bind_displayText?_eq_some_iff {raw : Value} {name text : String} :
    (raw.get? name).bind displayText? = some text ↔ raw.Shows name text := by
  have hshown : ∀ v : Value, v.displayText? = some text ↔ ¬ v.Silent ∧ v.display = text := by
    intro v
    by_cases h : v.Silent
    · simp [displayText?_of_silent h, h]
    · simp [displayText?_of_not_silent h, h]
  simp only [Option.bind_eq_some_iff, get?_eq_some_iff, hshown, Shows]

theorem bind_displayText?_eq_none_iff {raw : Value} {name : String} :
    (raw.get? name).bind displayText? = none ↔ ∀ text, ¬ raw.Shows name text := by
  simp only [Option.eq_none_iff_forall_ne_some, Ne, bind_displayText?_eq_some_iff]

/-- No empty text is shown. -/
theorem not_shows_empty (raw : Value) (name : String) : ¬ raw.Shows name "" := by
  rintro ⟨v, -, hsays, hempty⟩
  exact display_ne_empty hsays hempty

/-- Under each name a map holds one value. -/
theorem Holds.unique {raw v w : Value} {name : String} (hv : raw.Holds name v)
    (hw : raw.Holds name w) : v = w := by
  rw [← get?_eq_some_iff] at hv hw
  rw [hv] at hw
  exact Option.some.inj hw

/-- The first value under `status` reads as the text of a status. -/
def FirstStatus (raw : Value) (status : Status) : Prop :=
  ∃ v, raw.Holds "status" v ∧ v.asText? = some status.text

theorem bind_ofValue?_eq_some_iff {raw : Value} {status : Status} :
    (raw.get? "status").bind Status.ofValue? = some status ↔ raw.FirstStatus status := by
  simp only [Option.bind_eq_some_iff, get?_eq_some_iff, Status.ofValue?_eq_some_iff, FirstStatus]

theorem FirstStatus.unique {raw : Value} {status other : Status} (h : raw.FirstStatus status)
    (hother : raw.FirstStatus other) : status = other := by
  rw [← bind_ofValue?_eq_some_iff] at h hother
  rw [h] at hother
  exact Option.some.inj hother

/-- A first status that is not known is not made up for by a later one. -/
theorem Holds.not_firstStatus {raw v : Value} {status : Status} (hv : raw.Holds "status" v)
    (h : v.asText? ≠ some status.text) : ¬ raw.FirstStatus status := by
  rintro ⟨w, hw, htext⟩
  rw [hv.unique hw] at h
  exact h htext

/-- What a person is told about a reply. -/
inductive Tells (raw : Value) : Outcome → Prop
  /-- Of a success, the message if it is shown. -/
  | message {text : String} (h : raw.FirstStatus .ok) (hmessage : raw.Shows "message" text) :
      Tells raw (.message text)
  /-- Else the value if it is shown. -/
  | value {text : String} (h : raw.FirstStatus .ok) (hmessage : ∀ t, ¬ raw.Shows "message" t)
      (hvalue : raw.Shows "value" text) : Tells raw (.value text)
  /-- Else that it is one. -/
  | acknowledged (h : raw.FirstStatus .ok) (hmessage : ∀ t, ¬ raw.Shows "message" t)
      (hvalue : ∀ t, ¬ raw.Shows "value" t) : Tells raw .acknowledged
  /-- Of a failure, nothing more if the message is missing or nil. -/
  | failure (h : raw.FirstStatus .error) (hmessage : ∀ v, raw.Holds "message" v → v = .nil) :
      Tells raw (.serverError none)
  /-- Else the message, also an empty one. -/
  | failureText {v : Value} (h : raw.FirstStatus .error) (hmessage : raw.Holds "message" v)
      (hnil : v ≠ .nil) : Tells raw (.serverError (some v.display))
  /-- Of any other reply, all of it. -/
  | unexpected (h : ∀ status, ¬ raw.FirstStatus status) : Tells raw (.unexpected raw.display)

section Tells

variable {raw : Value} {text : String}

theorem tells_message_iff :
    raw.Tells (.message text) ↔ raw.FirstStatus .ok ∧ raw.Shows "message" text := by
  constructor
  · rintro (⟨hok, hmessage⟩)
    exact ⟨hok, hmessage⟩
  · rintro ⟨hok, hmessage⟩
    exact .message hok hmessage

theorem tells_value_iff :
    raw.Tells (.value text) ↔
      raw.FirstStatus .ok ∧ (∀ t, ¬ raw.Shows "message" t) ∧ raw.Shows "value" text := by
  constructor
  · rintro (_ | ⟨hok, hmessage, hvalue⟩)
    exact ⟨hok, hmessage, hvalue⟩
  · rintro ⟨hok, hmessage, hvalue⟩
    exact .value hok hmessage hvalue

theorem tells_acknowledged_iff :
    raw.Tells .acknowledged ↔
      raw.FirstStatus .ok ∧ (∀ t, ¬ raw.Shows "message" t) ∧ ∀ t, ¬ raw.Shows "value" t := by
  constructor
  · rintro (_ | _ | ⟨hok, hmessage, hvalue⟩)
    exact ⟨hok, hmessage, hvalue⟩
  · rintro ⟨hok, hmessage, hvalue⟩
    exact .acknowledged hok hmessage hvalue

theorem tells_failure_iff :
    raw.Tells (.serverError none) ↔
      raw.FirstStatus .error ∧ ∀ v, raw.Holds "message" v → v = .nil := by
  constructor
  · rintro (_ | _ | _ | ⟨herror, hmessage⟩)
    exact ⟨herror, hmessage⟩
  · rintro ⟨herror, hmessage⟩
    exact .failure herror hmessage

theorem tells_failureText_iff :
    raw.Tells (.serverError (some text)) ↔
      raw.FirstStatus .error ∧ ∃ v, raw.Holds "message" v ∧ v ≠ .nil ∧ v.display = text := by
  constructor
  · rintro (_ | _ | _ | _ | ⟨herror, hmessage, hnil⟩)
    exact ⟨herror, _, hmessage, hnil, rfl⟩
  · rintro ⟨herror, v, hmessage, hnil, rfl⟩
    exact .failureText herror hmessage hnil

theorem tells_unexpected_iff :
    raw.Tells (.unexpected text) ↔
      (∀ status, ¬ raw.FirstStatus status) ∧ raw.display = text := by
  constructor
  · rintro (_ | _ | _ | _ | _ | hnone)
    exact ⟨hnone, rfl⟩
  · rintro ⟨hnone, rfl⟩
    exact .unexpected hnone

end Tells

end Value

namespace Response

open Value (Tells)

variable {raw : Value}

theorem errorText?_of_forall (h : ∀ v, raw.Holds "message" v → v = .nil) :
    errorText? (raw.get? "message") = none := by
  cases hmessage : raw.get? "message" with
  | none => rfl
  | some v =>
    rw [h v (Value.get?_eq_some_iff.mp hmessage)]
    rfl

theorem errorText?_of_holds {v : Value} (h : raw.Holds "message" v) (hnil : v ≠ .nil) :
    errorText? (raw.get? "message") = some v.display := by
  rw [Value.get?_eq_some_iff.mpr h]
  cases v with
  | nil => exact absurd rfl hnil
  | _ => rfl

/-- Every reply is told about by one of the rules. -/
theorem tells_outcome (raw : Value) : raw.Tells (ofValue raw).outcome := by
  unfold ofValue
  rcases hstatus : (raw.get? "status").bind Status.ofValue? with _ | _ | _
  · refine .unexpected fun status h => ?_
    rw [Value.bind_ofValue?_eq_some_iff.mpr h] at hstatus
    cases hstatus
  · have hok := Value.bind_ofValue?_eq_some_iff.mp hstatus
    rw [outcome]
    cases hmessage : (raw.get? "message").bind Value.displayText? with
    | some text => exact .message hok (Value.bind_displayText?_eq_some_iff.mp hmessage)
    | none =>
      have hsilent := Value.bind_displayText?_eq_none_iff.mp hmessage
      cases hvalue : (raw.get? "value").bind Value.displayText? with
      | some text => exact .value hok hsilent (Value.bind_displayText?_eq_some_iff.mp hvalue)
      | none => exact .acknowledged hok hsilent (Value.bind_displayText?_eq_none_iff.mp hvalue)
  · have herror := Value.bind_ofValue?_eq_some_iff.mp hstatus
    rw [outcome]
    by_cases hnil : ∀ v, raw.Holds "message" v → v = .nil
    · rw [errorText?_of_forall hnil]
      exact .failure herror hnil
    · rw [not_forall] at hnil
      obtain ⟨v, hv⟩ := hnil
      rw [Classical.not_imp] at hv
      rw [errorText?_of_holds hv.1 hv.2]
      exact .failureText herror hv.1 hv.2

/-- The rules exclude each other. -/
theorem outcome_of_tells {o : Outcome} (h : raw.Tells o) : (ofValue raw).outcome = o := by
  cases h with
  | message hok hmessage =>
    rw [ofValue, Value.bind_ofValue?_eq_some_iff.mpr hok, outcome,
      Value.bind_displayText?_eq_some_iff.mpr hmessage]
  | value hok hmessage hvalue =>
    rw [ofValue, Value.bind_ofValue?_eq_some_iff.mpr hok, outcome,
      Value.bind_displayText?_eq_none_iff.mpr hmessage,
      Value.bind_displayText?_eq_some_iff.mpr hvalue]
  | acknowledged hok hmessage hvalue =>
    rw [ofValue, Value.bind_ofValue?_eq_some_iff.mpr hok, outcome,
      Value.bind_displayText?_eq_none_iff.mpr hmessage,
      Value.bind_displayText?_eq_none_iff.mpr hvalue]
  | failure herror hmessage =>
    rw [ofValue, Value.bind_ofValue?_eq_some_iff.mpr herror, outcome,
      errorText?_of_forall hmessage]
  | failureText herror hmessage hnil =>
    rw [ofValue, Value.bind_ofValue?_eq_some_iff.mpr herror, outcome,
      errorText?_of_holds hmessage hnil]
  | unexpected hnone =>
    have hstatus : (raw.get? "status").bind Status.ofValue? = none := by
      rw [Option.eq_none_iff_forall_ne_some]
      exact fun status h => hnone status (Value.bind_ofValue?_eq_some_iff.mp h)
    rw [ofValue, hstatus, outcome]

theorem outcome_eq_iff_tells {o : Outcome} : (ofValue raw).outcome = o ↔ raw.Tells o := by
  constructor
  · rintro rfl
    exact tells_outcome raw
  · exact outcome_of_tells

theorem isSuccess_outcome_iff : (ofValue raw).outcome.isSuccess = true ↔ raw.FirstStatus .ok := by
  have htells := tells_outcome raw
  constructor
  · intro h
    generalize (ofValue raw).outcome = o at h htells
    cases htells with
    | message hok | value hok | acknowledged hok => exact hok
    | failure | failureText | unexpected => cases h
  · intro hok
    generalize (ofValue raw).outcome = o at htells ⊢
    cases htells with
    | message | value | acknowledged => rfl
    | failure herror | failureText herror => cases hok.unique herror
    | unexpected hnone => exact absurd hok (hnone .ok)

theorem exists_outcome_eq_serverError_iff :
    (∃ text, (ofValue raw).outcome = .serverError text) ↔ raw.FirstStatus .error := by
  have htells := tells_outcome raw
  constructor
  · rintro ⟨text, h⟩
    rw [h] at htells
    cases htells with
    | failure herror | failureText herror => exact herror
  · intro herror
    generalize (ofValue raw).outcome = o at htells ⊢
    cases htells with
    | failure | failureText => exact ⟨_, rfl⟩
    | message hok | value hok | acknowledged hok => cases hok.unique herror
    | unexpected hnone => exact absurd herror (hnone .error)

/-- **The outcome of a reply is decided by its first status**: a success exactly for `OK`, a failure
exactly for `ERROR`, and unexpected with the text of the whole reply in every other case, also when
a status that is known stands behind one that is not.  A success tells the message if it is shown,
else the value if it is shown, else only that it is one, and its text is never empty.  A failure
tells nothing more exactly when its message is missing or nil, and the text of the message
otherwise. -/
theorem outcome_of_first_status (raw : Value) :
    ((ofValue raw).outcome.isSuccess = true ↔ raw.FirstStatus .ok) ∧
    ((∃ text, (ofValue raw).outcome = .serverError text) ↔ raw.FirstStatus .error) ∧
    (∀ text, (ofValue raw).outcome = .unexpected text ↔
      (∀ status, ¬ raw.FirstStatus status) ∧ raw.display = text) ∧
    (∀ v, raw.Holds "status" v → (∀ status : Status, v.asText? ≠ some status.text) →
      (ofValue raw).outcome = .unexpected raw.display) ∧
    (∀ text, (ofValue raw).outcome = .message text ↔
      raw.FirstStatus .ok ∧ raw.Shows "message" text) ∧
    (∀ text, (ofValue raw).outcome = .value text ↔
      raw.FirstStatus .ok ∧ (∀ t, ¬ raw.Shows "message" t) ∧ raw.Shows "value" text) ∧
    ((ofValue raw).outcome = .acknowledged ↔
      raw.FirstStatus .ok ∧ (∀ t, ¬ raw.Shows "message" t) ∧ ∀ t, ¬ raw.Shows "value" t) ∧
    (ofValue raw).outcome ≠ .message "" ∧ (ofValue raw).outcome ≠ .value "" ∧
    ((ofValue raw).outcome = .serverError none ↔
      raw.FirstStatus .error ∧ ∀ v, raw.Holds "message" v → v = .nil) ∧
    (∀ text, (ofValue raw).outcome = .serverError (some text) ↔
      raw.FirstStatus .error ∧ ∃ v, raw.Holds "message" v ∧ v ≠ .nil ∧ v.display = text) := by
  refine ⟨isSuccess_outcome_iff, exists_outcome_eq_serverError_iff,
    fun text => outcome_eq_iff_tells.trans Value.tells_unexpected_iff, ?_,
    fun text => outcome_eq_iff_tells.trans Value.tells_message_iff,
    fun text => outcome_eq_iff_tells.trans Value.tells_value_iff,
    outcome_eq_iff_tells.trans Value.tells_acknowledged_iff, ?_, ?_,
    outcome_eq_iff_tells.trans Value.tells_failure_iff,
    fun text => outcome_eq_iff_tells.trans Value.tells_failureText_iff⟩
  · intro v hv hunknown
    exact outcome_of_tells (.unexpected fun status => hv.not_firstStatus (hunknown status))
  · intro hempty
    have hmessage := Value.tells_message_iff.mp (outcome_eq_iff_tells.mp hempty)
    exact raw.not_shows_empty "message" hmessage.2
  · intro hempty
    have hvalue := Value.tells_value_iff.mp (outcome_eq_iff_tells.mp hempty)
    exact raw.not_shows_empty "value" hvalue.2.2

/-- A status in another case stands before one that is known, under a key held as bytes. -/
theorem outcome_of_first_status_in_lower_case :
    let raw := Value.map [(.int 1, .str "OK"),
      (.bin [0x73, 0x74, 0x61, 0x74, 0x75, 0x73], .str "ok"), (.str "status", .str "OK")]
    raw.Holds "status" (.str "ok") ∧
      (∀ status : Status, (Value.str "ok").asText? ≠ some status.text) ∧
      (ofValue raw).outcome = .unexpected "\x7b1: OK, status: ok, status: OK\x7d" := by
  intro raw
  have hholds : raw.Holds "status" (.str "ok") :=
    ⟨[(.int 1, .str "OK")], .bin [0x73, 0x74, 0x61, 0x74, 0x75, 0x73],
      [(.str "status", .str "OK")], rfl, Utf8.decode?_encode "status",
      List.forall_mem_singleton.mpr nofun⟩
  have hunknown : ∀ status : Status, (Value.str "ok").asText? ≠ some status.text := by
    intro status
    cases status <;> decide
  obtain ⟨-, -, -, hunexpected, -⟩ := outcome_of_first_status raw
  have hdisplay : raw.display = "\x7b1: OK, status: ok, status: OK\x7d" := by
    decide +kernel
  rw [hunexpected _ hholds hunknown, hdisplay]
  exact ⟨hholds, hunknown, rfl⟩

end Response
end KeyValueClient
