import KeyValueClient.Command.Wire
import KeyValueClient.Proofs.Writing
import KeyValueClient.Response.Outcome
import Mathlib.Data.List.Forall2
import Mathlib.Logic.Relation

/-!
# Two spellings of one meaning

A server may hold a text as a string or as the bytes of its UTF-8 form, and a number that is not
negative as an `int` or as a `uint`.  These are different values, and they mean the same: **whatever
the client reads from a value, it reads from every respelling of it**
(`Value.respelled_reads_alike`).

`RespelledOnce v w` says that `w` is `v` with one text or one number held in the other way, anywhere
in the tree, in keys as in values; `Respelled` is any number of such changes, in either direction.

## Observations

What one change keeps is proved for each way to look at a value: its text (`display`), what is shown
of it (`displayText?`), the text and the number that it reads as, and what stands under a name.  The
last is again a value, respelled once or as it was, so an observation of what stands under a name is
kept if it is kept on values (`RespelledOnce.apply_get?`).  Classes, outcomes, commands and faults
are made of such observations.

## Places

A chain of changes covers any choice of places: the members of a container are respelled one by one
(`Respelled.array`, `Respelled.map`).  In particular the canonical form of a value is a respelling
of it (`respelled_canonical`).
-/

namespace KeyValueClient
namespace Value

/-- One text or one number of a value is held in the other way. -/
inductive RespelledOnce : Value → Value → Prop
  | text (s : String) : RespelledOnce (.str s) (.bin (Utf8.encode s))
  | number {i : Int64} {n : UInt64} (h : i.toInt = n.toNat) : RespelledOnce (.int i) (.uint n)
  | item {v w : Value} (before after : List Value) (h : RespelledOnce v w) :
      RespelledOnce (.array (before ++ v :: after)) (.array (before ++ w :: after))
  | key {v w : Value} (before after : List (Value × Value)) (value : Value)
      (h : RespelledOnce v w) :
      RespelledOnce (.map (before ++ (v, value) :: after)) (.map (before ++ (w, value) :: after))
  | value {v w : Value} (before after : List (Value × Value)) (key : Value)
      (h : RespelledOnce v w) :
      RespelledOnce (.map (before ++ (key, v) :: after)) (.map (before ++ (key, w) :: after))

/-- Any number of texts and numbers of a value are held in the other way. -/
def Respelled : Value → Value → Prop := Relation.EqvGen RespelledOnce

/-- What one change keeps, all changes keep. -/
theorem Respelled.apply {α : Type} {f : Value → α} (hf : ∀ v w, RespelledOnce v w → f v = f w)
    {v w : Value} (h : Respelled v w) : f v = f w := by
  induction h with
  | rel v w h => exact hf v w h
  | refl v => rfl
  | symm v w _ ih => exact ih.symm
  | trans v w u _ _ ihfirst ihsecond => exact ihfirst.trans ihsecond

/-- What is put in one place of a value is respelled there. -/
theorem Respelled.lift {f : Value → Value}
    (hf : ∀ v w, RespelledOnce v w → RespelledOnce (f v) (f w)) {v w : Value} (h : Respelled v w) :
    Respelled (f v) (f w) := by
  induction h with
  | rel v w h => exact .rel _ _ (hf v w h)
  | refl v => exact .refl _
  | symm v w _ ih => exact .symm _ _ ih
  | trans v w u _ _ ihfirst ihsecond => exact .trans _ _ _ ihfirst ihsecond

/-- The items of an array are respelled one by one. -/
theorem Respelled.array {items others : List Value} (h : List.Forall₂ Respelled items others) :
    Respelled (.array items) (.array others) := by
  -- the items in front have been respelled already
  suffices hbefore : ∀ before,
      Respelled (.array (before ++ items)) (.array (before ++ others)) from hbefore []
  induction h with
  | nil => exact fun before => .refl _
  | @cons v w items others hitem _ ih =>
    intro before
    have hfirst : Respelled (.array (before ++ v :: items)) (.array (before ++ w :: items)) :=
      hitem.lift (f := fun v => .array (before ++ v :: items)) fun _ _ => .item before items
    have hrest := ih (before ++ [w])
    rw [List.append_assoc, List.append_assoc] at hrest
    exact .trans _ _ _ hfirst hrest

/-- The keys and the values of a map are respelled one by one. -/
theorem Respelled.map {entries others : List (Value × Value)}
    (h : List.Forall₂ (fun a b => Respelled a.1 b.1 ∧ Respelled a.2 b.2) entries others) :
    Respelled (.map entries) (.map others) := by
  suffices hbefore : ∀ before,
      Respelled (.map (before ++ entries)) (.map (before ++ others)) from hbefore []
  induction h with
  | nil => exact fun before => .refl _
  | @cons v w entries others hentry _ ih =>
    obtain ⟨vkey, vvalue⟩ := v
    obtain ⟨wkey, wvalue⟩ := w
    obtain ⟨hkey, hvalue⟩ := hentry
    intro before
    have hfirst : Respelled (.map (before ++ (vkey, vvalue) :: entries))
        (.map (before ++ (wkey, vvalue) :: entries)) :=
      hkey.lift (f := fun key => .map (before ++ (key, vvalue) :: entries))
        fun _ _ => .key before entries vvalue
    have hsecond : Respelled (.map (before ++ (wkey, vvalue) :: entries))
        (.map (before ++ (wkey, wvalue) :: entries)) :=
      hvalue.lift (f := fun value => .map (before ++ (wkey, value) :: entries))
        fun _ _ => .value before entries wkey
    have hrest := ih (before ++ [(wkey, wvalue)])
    rw [List.append_assoc, List.append_assoc] at hrest
    exact .trans _ _ _ hfirst (.trans _ _ _ hsecond hrest)

/-- **The canonical form is a respelling.** -/
theorem respelled_canonical (v : Value) : Respelled v.canonical v := by
  induction v with
  | nil | bool | int | float | str | bin | ext => exact .refl _
  | uint n =>
    rcases canonical_uint n with h | ⟨i, hi, h⟩
    · rw [h]
      exact .refl _
    · rw [h]
      exact .rel _ _ (.number hi)
  | array items ih =>
    rw [canonical_array]
    exact .array (List.forall₂_map_left_iff.mpr (List.forall₂_same.mpr ih))
  | map entries ih =>
    rw [canonical_map]
    exact .map (List.forall₂_map_left_iff.mpr (List.forall₂_same.mpr ih))

/-! ## What one change keeps -/

namespace RespelledOnce

variable {v w : Value}

theorem display (h : RespelledOnce v w) : v.display = w.display := by
  induction h with
  | text s => simp [Value.display]
  | number h => rw [Value.display, Value.display, h]; rfl
  | item before after _ ih => simp [Value.display, displayItems_eq_map, ih]
  | key before after value _ ih => simp [Value.display, displayEntries_eq_map, ih]
  | value before after key _ ih => simp [Value.display, displayEntries_eq_map, ih]

theorem asText? (h : RespelledOnce v w) : v.asText? = w.asText? := by
  cases h with
  | text s => exact (Utf8.decode?_encode s).symm
  | number | item | key | value => rfl

theorem asInt64? (h : RespelledOnce v w) : v.asInt64? = w.asInt64? := by
  cases h with
  | @number i n h =>
    have hi : Int64.ofNat n.toNat = i := by
      rw [← Int64.ofInt_eq_ofNat, ← h, Int64.ofInt_toInt]
    have hlt := i.toInt_lt
    rw [Value.asInt64?, Value.asInt64?, if_pos (by omega), hi]
  | text | item | key | value => rfl

theorem isNone_asMap? (h : RespelledOnce v w) : v.asMap?.isNone = w.asMap?.isNone := by
  cases h <;> rfl

/-- No change makes a text that says something of one that says nothing. -/
theorem displayText? (h : RespelledOnce v w) : v.displayText? = w.displayText? := by
  have hdisplay := h.display
  cases h with
  | text s =>
    by_cases hs : s = ""
    · subst hs
      rfl
    · cases hbytes : Utf8.encode s with
      | nil => exact absurd (Utf8.encode_eq_nil_iff.mp hbytes) hs
      | cons b bytes =>
        rw [hbytes] at hdisplay
        rw [Value.displayText?, if_neg hs]
        exact congrArg some hdisplay
  | number | item | key | value => exact congrArg some hdisplay

theorem errorText? (h : RespelledOnce v w) :
    Response.errorText? (some v) = Response.errorText? (some w) := by
  have hdisplay := h.display
  cases h <;> exact congrArg some hdisplay

/-- What stands under a name is the same value, or it is respelled as well. -/
theorem get?_cases (h : RespelledOnce v w) (name : String) :
    v.get? name = w.get? name ∨
      ∃ a b, v.get? name = some a ∧ w.get? name = some b ∧ RespelledOnce a b := by
  cases h with
  | text | number | item => exact .inl rfl
  | key before after value h =>
    refine .inl ?_
    show lookup name _ = lookup name _
    rw [lookup_append, lookup_append, lookup_cons, lookup_cons, h.asText?]
  | value before after key h =>
    show lookup name _ = lookup name _ ∨
      ∃ a b, lookup name _ = some a ∧ lookup name _ = some b ∧ RespelledOnce a b
    rw [lookup_append, lookup_append, lookup_cons, lookup_cons]
    -- an entry in front of the change is found in both, and so is one behind it
    rcases lookup name before with _ | found
    · by_cases hkey : key.asText? = some name
      · exact .inr ⟨_, _, if_pos hkey, if_pos hkey, h⟩
      · exact .inl (by rw [if_neg hkey, if_neg hkey])
    · exact .inl rfl

/-- An observation of what stands under a name is kept if it is kept on values. -/
theorem apply_get? {α : Type} {f : Option Value → α}
    (hf : ∀ a b, RespelledOnce a b → f (some a) = f (some b)) (h : RespelledOnce v w)
    (name : String) : f (v.get? name) = f (w.get? name) := by
  rcases h.get?_cases name with heq | ⟨a, b, ha, hb, hab⟩
  · rw [heq]
  · rw [ha, hb]
    exact hf a b hab

end RespelledOnce

end Value

open Value (RespelledOnce Respelled)

/-! ## Replies -/

namespace Response

theorem outcome_ofValue_of_respelledOnce {v w : Value} (h : RespelledOnce v w) :
    (ofValue v).outcome = (ofValue w).outcome := by
  have hstatus : (v.get? "status").bind Status.ofValue? =
      (w.get? "status").bind Status.ofValue? := by
    refine h.apply_get? (f := fun status => status.bind Status.ofValue?) ?_ "status"
    intro a b hab
    show Status.ofValue? a = Status.ofValue? b
    rw [Status.ofValue?, Status.ofValue?, hab.asText?]
  have hshown : ∀ name, (v.get? name).bind Value.displayText? =
      (w.get? name).bind Value.displayText? :=
    h.apply_get? (f := fun value => value.bind Value.displayText?) fun a b hab => hab.displayText?
  have herror : errorText? (v.get? "message") = errorText? (w.get? "message") :=
    h.apply_get? (fun a b hab => hab.errorText?) "message"
  unfold ofValue
  rw [hstatus]
  rcases (w.get? "status").bind Status.ofValue? with _ | _ | _
  · exact congrArg Outcome.unexpected h.display
  · rw [outcome, outcome, hshown, hshown]
  · exact congrArg Outcome.serverError herror

end Response

/-! ## Requests -/

namespace Command

theorem ofFields_of_respelledOnce {v w : Value} (h : RespelledOnce v w) (name : CommandName) :
    ofFields v name = ofFields w name := by
  have htext : textField v = textField w := by
    funext name field
    have hread : (v.get? field).bind Value.asText? = (w.get? field).bind Value.asText? :=
      h.apply_get? (f := fun value => value.bind Value.asText?) (fun a b hab => hab.asText?) field
    rw [textField, textField, hread]
  have hexpiry : expiryField v = expiryField w := by
    unfold expiryField
    rcases h.get?_cases "exp" with heq | ⟨a, b, ha, hb, hab⟩
    · rw [heq]
    · rw [ha, hb]
      simp only [hab.asInt64?, hab.display]
  unfold ofFields
  simp only [htext, hexpiry]

theorem ofValue_of_respelledOnce {v w : Value} (h : RespelledOnce v w) :
    ofValue v = ofValue w := by
  have hname : (v.get? "command").bind Value.asText? = (w.get? "command").bind Value.asText? :=
    h.apply_get? (f := fun value => value.bind Value.asText?) (fun a b hab => hab.asText?) "command"
  unfold ofValue
  simp only [h.isNone_asMap?, h.display, hname, ofFields_of_respelledOnce h]

end Command

namespace Value

/-! ## Respelled values -/

/-- **What is read from a value is read from every respelling of it.**  Replies that are respelled
have one outcome.  Payloads that say respelled values are the same command, or they are refused with
the same fault. -/
theorem respelled_reads_alike :
    (∀ v w, Respelled v w → (Response.ofValue v).outcome = (Response.ofValue w).outcome) ∧
    (∀ payload other v w, ofPayload payload = .ok v → ofPayload other = .ok w → Respelled v w →
      Command.ofPayload payload = Command.ofPayload other) := by
  constructor
  · intro v w h
    exact h.apply (f := fun v => (Response.ofValue v).outcome)
      fun _ _ => Response.outcome_ofValue_of_respelledOnce
  · intro payload other v w hv hw h
    have hcommand : Command.ofValue v = Command.ofValue w :=
      h.apply fun _ _ => Command.ofValue_of_respelledOnce
    rw [Command.ofPayload, Command.ofPayload, bind_of_eq_ok hv, bind_of_eq_ok hw, hcommand]

/-- A reply and a request, each with a text held as bytes under a name held as bytes; the number of
the reply is held in the other range. -/
theorem respelled_reads_alike_in_bytes :
    let reply := Value.map [(.str "status", .str "OK"), (.str "value", .int 5)]
    let reply' := Value.map
      [(.bin (Utf8.encode "status"), .bin [0x4f, 0x4b]), (.str "value", .uint 5)]
    let request := Value.map [(.str "command", .str "GET"), (.str "key", .str "k")]
    let request' := Value.map [(.str "command", .str "GET"), (.bin [0x6b, 0x65, 0x79], .bin [0x6b])]
    Respelled reply reply' ∧ (Response.ofValue reply').outcome = .value "5" ∧
      Respelled request request' ∧ ofPayload request.encode = .ok request ∧
      ofPayload request'.encode = .ok request' ∧
      Command.ofPayload request'.encode = .ok (.get "k") := by
  intro reply reply' request request'
  obtain ⟨houtcome, hcommand⟩ := respelled_reads_alike
  have hreply : Respelled reply reply' :=
    .map (.cons ⟨.rel _ _ (.text "status"), .rel _ _ (.text "OK")⟩
      (.cons ⟨.refl _, .rel _ _ (.number rfl)⟩ .nil))
  have hrequest : Respelled request request' :=
    .map (.cons ⟨.refl _, .refl _⟩
      (.cons ⟨.rel _ _ (.text "key"), .rel _ _ (.text "k")⟩ .nil))
  have hread : ofPayload request.encode = .ok request := by
    refine ofPayload_encode_of_canonical ?_ rfl (by decide)
    exact .map_of_forall (by decide) (List.forall_mem_cons.mpr
      ⟨⟨.str (by decide), .str (by decide)⟩,
        List.forall_mem_singleton.mpr ⟨.str (by decide), .str (by decide)⟩⟩)
  have hread' : ofPayload request'.encode = .ok request' := by
    refine ofPayload_encode_of_canonical ?_ rfl (by decide)
    exact .map_of_forall (by decide) (List.forall_mem_cons.mpr
      ⟨⟨.str (by decide), .str (by decide)⟩,
        List.forall_mem_singleton.mpr ⟨.bin (by decide), .bin (by decide)⟩⟩)
  refine ⟨hreply, ?_, hrequest, hread, hread', ?_⟩
  · rw [← houtcome reply reply' hreply]
    rfl
  · rw [← hcommand _ _ _ _ hread hread' hrequest, Command.ofPayload, bind_of_eq_ok hread]
    rfl

end Value
end KeyValueClient
