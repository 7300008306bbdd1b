import KeyValueClient.Proofs.Requests
import KeyValueClient.Response.Basic
import Mathlib.Logic.Relation

/-!
# Layouts of one map

Requests and replies are maps, and their fields are looked up by name.  So a map can be laid out in
many ways that say the same: entries of different names may trade places, there may be entries of
other names, whatever their keys are, and a name that has stood before may stand again with any
value.  `RelaidOnce` is one such difference and `Relaid` any number of them, in either direction.

**A layout keeps what every field name selects** (`Relaid.lookup_eq`), so maps that are laid out
differently are the same command or are refused with the same fault, and they are the same response
(`layout_makes_no_difference`).  Only an unexpected reply, which is kept as it came, keeps its
layout.
-/

namespace KeyValueClient
namespace Value

/-- The names under which fields are looked up: `status` in replies, and those of requests, among
which are the other names of replies. -/
def fieldNames : List String := "status" :: Command.entryNames

/-- Two keys read as one text. -/
def SameText (v w : Value) : Prop := ∃ text, v.asText? = some text ∧ w.asText? = some text

/-- One difference between two layouts of a map. -/
inductive RelaidOnce : List (Value × Value) → List (Value × Value) → Prop
  /-- Neighbours trade places, unless their keys read as one text. -/
  | swap (before after : List (Value × Value)) {first second : Value × Value}
      (h : ¬ SameText first.1 second.1) :
      RelaidOnce (before ++ first :: second :: after) (before ++ second :: first :: after)
  /-- An entry whose key reads as no field name is left out. -/
  | foreign (before after : List (Value × Value)) {entry : Value × Value}
      (h : ∀ name ∈ fieldNames, entry.1.asText? ≠ some name) :
      RelaidOnce (before ++ entry :: after) (before ++ after)
  /-- An entry is left out whose key reads as one that stands before it. -/
  | repeated (before between after : List (Value × Value)) {first later : Value × Value}
      (h : SameText first.1 later.1) :
      RelaidOnce (before ++ first :: (between ++ later :: after))
        (before ++ first :: (between ++ after))

/-- Two layouts of one map. -/
def Relaid : List (Value × Value) → List (Value × Value) → Prop := Relation.EqvGen RelaidOnce

section Lookups

variable {entries others : List (Value × Value)} {name : String}

/-- One difference keeps what a field name selects. -/
theorem RelaidOnce.lookup_eq (h : RelaidOnce entries others) (hname : name ∈ fieldNames) :
    lookup name entries = lookup name others := by
  cases h with
  | @swap before after first second h =>
    have hneighbours : lookup name (first :: second :: after) =
        lookup name (second :: first :: after) := by
      simp only [lookup_cons]
      by_cases hfirst : first.1.asText? = some name
      · have hsecond : second.1.asText? ≠ some name := fun hsecond => h ⟨name, hfirst, hsecond⟩
        rw [if_pos hfirst, if_neg hsecond, if_pos hfirst]
      · rw [if_neg hfirst, if_neg hfirst]
    rw [lookup_append, lookup_append, hneighbours]
  | @foreign before after entry h =>
    rw [lookup_append, lookup_append, lookup_cons, if_neg (h name hname)]
  | @repeated before between after first later h =>
    rw [lookup_append, lookup_append, lookup_cons, lookup_cons]
    by_cases hfirst : first.1.asText? = some name
    · rw [if_pos hfirst, if_pos hfirst]
    · -- the first entry is passed over, and so is the later one, which reads the same
      have hlater : later.1.asText? ≠ some name := by
        obtain ⟨text, htext, hsame⟩ := h
        rw [htext] at hfirst
        rwa [hsame]
      rw [if_neg hfirst, if_neg hfirst, lookup_append, lookup_append, lookup_cons,
        if_neg hlater]

/-- **A layout keeps what every field name selects.** -/
theorem Relaid.lookup_eq (h : Relaid entries others) (hname : name ∈ fieldNames) :
    lookup name entries = lookup name others := by
  -- agreement of a lookup is an equivalence, so it holds of what the differences generate
  have hagree : Equivalence (InvImage (· = ·) (lookup name)) := eq_equivalence.comap (lookup name)
  exact hagree.eqvGen_iff.mp (h.mono fun _ _ hstep => hstep.lookup_eq hname)

theorem Relaid.get?_eq (h : Relaid entries others) (name : String) (hname : name ∈ fieldNames) :
    (Value.map entries).get? name = (Value.map others).get? name :=
  h.lookup_eq hname

end Lookups

end Value

open Value (Relaid)

variable {entries others : List (Value × Value)}

/-! ## Requests -/

namespace Command

theorem textField_of_relaid (h : Relaid entries others) (name : CommandName) (field : String)
    (hfield : field ∈ Value.fieldNames) :
    textField (.map entries) name field = textField (.map others) name field := by
  rw [textField, textField, h.get?_eq field hfield]

theorem expiryField_of_relaid (h : Relaid entries others) :
    expiryField (.map entries) = expiryField (.map others) := by
  rw [expiryField, expiryField, h.get?_eq "exp" (by decide)]

theorem ofFields_of_relaid (h : Relaid entries others) (name : CommandName) :
    ofFields (.map entries) name = ofFields (.map others) name := by
  have hmessage := textField_of_relaid h name "message" (by decide)
  have hkey := textField_of_relaid h name "key" (by decide)
  have hvalue := textField_of_relaid h name "value" (by decide)
  have hoffset := textField_of_relaid h name "offset" (by decide)
  simp only [ofFields, hmessage, hkey, hvalue, hoffset, expiryField_of_relaid h]

/-- A layout of a request says the same command, or it is refused with the same fault. -/
theorem ofValue_of_relaid (h : Relaid entries others) :
    ofValue (.map entries) = ofValue (.map others) := by
  have hmap : ∀ entries, (Value.map entries).asMap?.isNone = false := fun _ => rfl
  have hname := h.get?_eq "command" (by decide)
  unfold ofValue
  simp only [hmap, hname, ofFields_of_relaid h, Bool.false_eq_true, if_false]

end Command

/-! ## Replies -/

namespace Response

theorem ofPayload_of_value {payload : Bytes} {v : Value} (h : Value.ofPayload payload = .ok v) :
    ofPayload payload = .ok (ofValue v) := by
  rw [ofPayload, h]
  rfl

/-- A layout of a reply is the same response, unless it is unexpected. -/
theorem ofValue_of_relaid (h : Relaid entries others) :
    ofValue (.map entries) = ofValue (.map others) ∨
      ofValue (.map entries) = .unexpected (.map entries) ∧
        ofValue (.map others) = .unexpected (.map others) := by
  rw [ofValue, ofValue, h.get?_eq "status" (by decide),
    h.get?_eq "message" (by decide), h.get?_eq "value" (by decide)]
  rcases ((Value.map others).get? "status").bind Status.ofValue? with _ | _ | _
  · exact .inr ⟨rfl, rfl⟩
  · exact .inl rfl
  · exact .inl rfl

end Response

namespace Value

/-! ## Payloads -/

/-- **The layout of a map makes no difference.**  Payloads that hold two layouts of one map are the
same command, or they are refused with the same fault; and they are the same response if one of them
is a success or a failure, and both unexpected otherwise. -/
theorem layout_makes_no_difference :
    ∀ payload other entries others, ofPayload payload = .ok (.map entries) →
      ofPayload other = .ok (.map others) → Relaid entries others →
      Command.ofPayload payload = Command.ofPayload other ∧
      (∀ message value, Response.ofPayload payload = .ok (.ok message value) ↔
        Response.ofPayload other = .ok (.ok message value)) ∧
      (∀ message, Response.ofPayload payload = .ok (.error message) ↔
        Response.ofPayload other = .ok (.error message)) ∧
      ((∃ raw, Response.ofPayload payload = .ok (.unexpected raw)) ↔
        ∃ raw, Response.ofPayload other = .ok (.unexpected raw)) := by
  intro payload other entries others hpayload hother h
  refine ⟨?_, ?_⟩
  · rw [Command.ofPayload, Command.ofPayload, bind_of_eq_ok hpayload, bind_of_eq_ok hother,
      Command.ofValue_of_relaid h]
  · rw [Response.ofPayload_of_value hpayload, Response.ofPayload_of_value hother]
    rcases Response.ofValue_of_relaid h with hsame | ⟨hentries, hothers⟩
    · simp only [hsame, implies_true, and_self]
    · simp [hentries, hothers]

/-- A map that is a request and a reply, and the same map with two entries in the other order, an
entry under a number in front of them and a second status behind them. -/
theorem layout_makes_no_difference_with_padding :
    let entries := [(Value.str "command", Value.str "ping"), (.str "status", .str "OK"),
      (.str "value", .int 5)]
    let others := [(Value.int 7, Value.nil), (.str "status", .str "OK"),
      (.str "command", .str "ping"), (.str "value", .int 5), (.bin (Utf8.encode "status"), .nil)]
    ofPayload (Value.map entries).encode = .ok (.map entries) ∧
      ofPayload (Value.map others).encode = .ok (.map others) ∧ Relaid entries others ∧
      Command.ofPayload (Value.map others).encode = .ok .ping ∧
      Response.ofPayload (Value.map others).encode = .ok (.ok none (some (.int 5))) := by
  intro entries others
  have hentries : ofPayload (Value.map entries).encode = .ok (.map entries) := by
    refine ofPayload_encode_of_canonical ?_ rfl (by decide)
    exact .map_of_forall (by decide) (List.forall_mem_cons.mpr
      ⟨⟨.str (by decide), .str (by decide)⟩, List.forall_mem_cons.mpr
        ⟨⟨.str (by decide), .str (by decide)⟩,
          List.forall_mem_singleton.mpr ⟨.str (by decide), .int 5⟩⟩⟩)
  have hothers : ofPayload (Value.map others).encode = .ok (.map others) := by
    refine ofPayload_encode_of_canonical ?_ rfl (by decide)
    exact .map_of_forall (by decide) (List.forall_mem_cons.mpr
      ⟨⟨.int 7, .nil⟩, List.forall_mem_cons.mpr
        ⟨⟨.str (by decide), .str (by decide)⟩, List.forall_mem_cons.mpr
          ⟨⟨.str (by decide), .str (by decide)⟩, List.forall_mem_cons.mpr
            ⟨⟨.str (by decide), .int 5⟩, List.forall_mem_singleton.mpr
              ⟨.bin (by decide), .nil⟩⟩⟩⟩⟩)
  have hrelaid : Relaid entries others := by
    have hforeign : RelaidOnce others others.tail :=
      .foreign [] others.tail (by simp [asText?])
    have hrepeated : RelaidOnce others.tail (others.tail.take 3) :=
      .repeated [] [(.str "command", .str "ping"), (.str "value", .int 5)] []
        ⟨"status", rfl, Utf8.decode?_encode "status"⟩
    have hswap : RelaidOnce entries (others.tail.take 3) :=
      .swap [] [(.str "value", .int 5)] (by simp [SameText, asText?])
    exact .trans _ _ _ (.rel _ _ hswap)
      (.symm _ _ (.trans _ _ _ (.rel _ _ hforeign) (.rel _ _ hrepeated)))
  obtain ⟨hcommand, hok, -, -⟩ := layout_makes_no_difference _ _ _ _ hentries hothers hrelaid
  refine ⟨hentries, hothers, hrelaid, ?_, ?_⟩
  · rw [← hcommand, Command.ofPayload, bind_of_eq_ok hentries]
    rfl
  · refine (hok none (some (.int 5))).mp ?_
    rw [Response.ofPayload_of_value hentries]
    rfl

end Value
end KeyValueClient
