import KeyValueClient.Proofs.Numerals
import KeyValueClient.Proofs.Parsing
import KeyValueClient.Proofs.Requests
import KeyValueClient.Proofs.Tokens

/-!
# Expiries are integers

The third argument of `SET`, if there is one, is its expiry.  It is one token, so it may be of any
length, be empty or have spaces in it, and what decides is whether it is a numeral
(`Text.Numeral`): one sign or none, and then digits of ASCII.  A numeral of an integer of sixty-four
bits is the expiry of the command, and every other token is refused as it was typed
(`Command.readExpiry_eq_ok`, `Command.readExpiry_eq_error`).

On the wire the expiry is the last object of the command (`Command.exists_encode_set_eq`), and it is
read as the integer that was typed.  **So an expiry is the integer that its numeral says, from the
line to the other end of the wire** (`Command.expiry_of_line_is_exact`), if the lengths of the key
and of the value can be stored.

The first length that cannot is `2 ^ 32`, which is stored as zero.  A command with such a key is
misread: its key is taken for an empty one, the text of the key for the entries that should follow,
and the expiry is lost (`Command.expiry_behind_overlong_key_is_lost`).
-/

namespace KeyValueClient
namespace Command

open MessagePack

/-! ## Tokens -/

section Tokens

variable {token : String}

/-- A numeral of an integer of sixty-four bits is an expiry. -/
theorem readExpiry_eq_ok {i : Int} (h : Text.Numeral token.toList i) (hlow : -2 ^ 63 ≤ i)
    (hhigh : i ≤ 2 ^ 63 - 1) : readExpiry token = .ok (Int64.ofInt i) := by
  refine readExpiry_eq_ok_iff.mpr (Text.int64?_eq_some_iff.mpr ?_)
  rwa [Int64.toInt_ofInt_of_le hlow (by omega)]

/-- Every other token is refused, and told as it was typed. -/
theorem readExpiry_eq_error
    (h : ¬ ∃ i, Text.Numeral token.toList i ∧ -2 ^ 63 ≤ i ∧ i ≤ 2 ^ 63 - 1) :
    readExpiry token = .error (.invalidExpiry token) := by
  rw [readExpiry, Text.int64?_eq_none_iff.mpr h]

end Tokens

/-! ## Lines -/

/-- What a line says that names `SET` and has an expiry. -/
theorem parse_set_of_tokens {line first key value token : String} {later : List String}
    (htokens : tokenize line = .ok (first :: key :: value :: token :: later))
    (hset : CommandName.ofText? first = some .set) :
    parse line = (readExpiry token).map fun expiry => .set key value (some expiry) := by
  rw [parse, bind_of_eq_ok htokens, ofTokens,
    bind_of_eq_ok (CommandName.ofToken_eq_ok_iff.mpr hset), ofArguments]
  cases readExpiry token <;> rfl

/-! ## The wire -/

/-- The bytes of a command with an expiry, entry by entry. -/
theorem encode_set (key value : String) (expiry : Int64) :
    (Command.set key value (some expiry)).encode =
      mapHeader 4 ++ (string "command" ++ string "SET") ++ (string "key" ++ string key) ++
        (string "value" ++ string value) ++ (string "exp" ++ (Value.int expiry).encode) := by
  simp [encode, fields, name, CommandName.text, FieldValue.encode, Value.encode]

/-- The bytes of a command end with the object of its expiry. -/
theorem exists_encode_set_eq (key value : String) (expiry : Int64) :
    ∃ front, (Command.set key value (some expiry)).encode =
      front ++ (Value.int expiry).encode :=
  ⟨_, by rw [encode_set, ← List.append_assoc]⟩

/-- The texts of a command with an expiry are its key and its value. -/
theorem storable_set {key value : String} (hkey : (Utf8.encode key).length < 2 ^ 32)
    (hvalue : (Utf8.encode value).length < 2 ^ 32) (expiry : Int64) :
    (Command.set key value (some expiry)).Storable := by
  intro field text h
  simp only [fields, List.mem_cons, List.not_mem_nil, or_false, Prod.mk.injEq,
    FieldValue.text.injEq, reduceCtorEq, and_false] at h
  rcases h with ⟨-, rfl⟩ | ⟨-, rfl⟩
  · exact hkey
  · exact hvalue

/-- **An expiry is the integer that its numeral says.**  Of a line that names `SET` and has a fourth
token, only this token decides.  If it is a numeral of an integer of sixty-four bits, the line says
the command with this integer as its expiry.  The command is read back from its bytes as far as its
key and its value have lengths that can be stored, and the object of the expiry, with which the
bytes end, is read as this integer in any case.  Every other token is refused as it was typed. -/
theorem expiry_of_line_is_exact {line first key value token : String} {later : List String}
    (htokens : tokenize line = .ok (first :: key :: value :: token :: later))
    (hset : CommandName.ofText? first = some .set) :
    ((∃ c, parse line = .ok c) ↔
      ∃ i, Text.Numeral token.toList i ∧ -2 ^ 63 ≤ i ∧ i ≤ 2 ^ 63 - 1) ∧
    (∀ i, Text.Numeral token.toList i → -2 ^ 63 ≤ i → i ≤ 2 ^ 63 - 1 →
      ∃ expiry : Int64, expiry.toInt = i ∧
        let c := Command.set key value (some expiry)
        parse line = .ok c ∧
          ((Utf8.encode key).length < 2 ^ 32 → (Utf8.encode value).length < 2 ^ 32 →
            ∀ rest, ofPayload (c.encode ++ rest) = .ok c) ∧
          (∃ front, c.encode = front ++ (Value.int expiry).encode) ∧
          ∀ rest, Value.ofPayload ((Value.int expiry).encode ++ rest) = .ok (.int expiry)) ∧
    ((¬ ∃ i, Text.Numeral token.toList i ∧ -2 ^ 63 ≤ i ∧ i ≤ 2 ^ 63 - 1) →
      parse line = .error (.invalidExpiry token)) := by
  have hparse := parse_set_of_tokens htokens hset
  have hread : ∀ i, Text.Numeral token.toList i → -2 ^ 63 ≤ i → i ≤ 2 ^ 63 - 1 →
      parse line = .ok (.set key value (some (Int64.ofInt i))) := by
    intro i hi hlow hhigh
    rw [hparse, readExpiry_eq_ok hi hlow hhigh]
    rfl
  have hrefused : (¬ ∃ i, Text.Numeral token.toList i ∧ -2 ^ 63 ≤ i ∧ i ≤ 2 ^ 63 - 1) →
      parse line = .error (.invalidExpiry token) := by
    intro hnone
    rw [hparse, readExpiry_eq_error hnone]
    rfl
  refine ⟨⟨?_, ?_⟩, ?_, hrefused⟩
  · rintro ⟨c, hc⟩
    by_contra hnone
    rw [hrefused hnone] at hc
    cases hc
  · rintro ⟨i, hi, hlow, hhigh⟩
    exact ⟨_, hread i hi hlow hhigh⟩
  · intro i hi hlow hhigh
    refine ⟨Int64.ofInt i, Int64.toInt_ofInt_of_le hlow (by omega), hread i hi hlow hhigh, ?_,
      exists_encode_set_eq key value _, ?_⟩
    · intro hkey hvalue rest
      have hstorable := storable_set hkey hvalue (Int64.ofInt i)
      rw [ofPayload, bind_of_eq_ok (valueOfPayload_encode_append hstorable rest), ofValue_toValue]
    · intro rest
      exact Value.ofPayload_denotes_append (MessagePack.denotes_encode (.int _)) rest

/-- The lowest integer of sixty-four bits, behind leading zeros, on a line with more behind it; and
the size of this integer, which is out of the range. -/
theorem expiry_of_line_is_exact_at_low_end :
    let line := "sEt \"a b\" \"\" \"-000000000000000000009223372036854775808\" 7"
    let beyond := "SET k v +9223372036854775808"
    let c := Command.set "a b" "" (some (-9223372036854775808))
    tokenize line =
        .ok ["sEt", "a b", "", "-000000000000000000009223372036854775808", "7"] ∧
      CommandName.ofText? "sEt" = some .set ∧
      Text.Numeral "-000000000000000000009223372036854775808".toList (-9223372036854775808) ∧
      parse line = .ok c ∧ ofPayload (c.encode ++ [0xc1]) = .ok c ∧
      (¬ ∃ i, Text.Numeral "+9223372036854775808".toList i ∧ -2 ^ 63 ≤ i ∧ i ≤ 2 ^ 63 - 1) ∧
      parse beyond = .error (.invalidExpiry "+9223372036854775808") := by
  intro line beyond c
  have htokens : tokenize line =
      .ok ["sEt", "a b", "", "-000000000000000000009223372036854775808", "7"] := by decide
  have hset : CommandName.ofText? "sEt" = some .set := by decide
  obtain ⟨-, hexact, -⟩ := expiry_of_line_is_exact htokens hset
  have hbeyondTokens : tokenize beyond = .ok ["SET", "k", "v", "+9223372036854775808"] := by decide
  have hSET : CommandName.ofText? "SET" = some .set := by decide
  obtain ⟨-, -, hrefused⟩ := expiry_of_line_is_exact hbeyondTokens hSET
  have hdigits : Text.Digits "9223372036854775808".toList :=
    Text.digits_iff.mpr (by decide)
  have hsize : Text.placeValue "9223372036854775808".toList = 9223372036854775808 := by decide
  have hlowest : Text.Numeral "-000000000000000000009223372036854775808".toList
      (-9223372036854775808) := by
    have hzeros : Text.Digits (List.replicate 20 '0' ++ "9223372036854775808".toList) :=
      Text.digits_iff.mpr (by decide)
    have htext : "-000000000000000000009223372036854775808".toList =
        '-' :: (List.replicate 20 '0' ++ "9223372036854775808".toList) := by decide
    have hnumeral := Text.Numeral.minus hzeros
    rw [Text.placeValue_zeros_append, hsize] at hnumeral
    rw [htext]
    exact_mod_cast hnumeral
  have hbeyond : ¬ ∃ i, Text.Numeral "+9223372036854775808".toList i ∧
      -2 ^ 63 ≤ i ∧ i ≤ 2 ^ 63 - 1 := by
    have htext : "+9223372036854775808".toList = '+' :: "9223372036854775808".toList := by decide
    rintro ⟨i, hi, -, hhigh⟩
    rw [htext] at hi
    have hvalue := hi.unique (.plus hdigits)
    rw [hsize] at hvalue
    omega
  obtain ⟨expiry, hexpiry, hparse, hread, -, -⟩ :=
    hexact _ hlowest (by decide) (by decide)
  obtain rfl : expiry = -9223372036854775808 := Int64.toInt_inj.mp hexpiry
  exact ⟨htokens, hset, hlowest, hparse, hread (by decide) (by decide) [0xc1], hbeyond,
    hrefused hbeyond⟩

/-! ## Lengths that cannot be stored -/

/-- The bytes of a `SET` with an expiry up to a key whose length is stored as zero. -/
def frontOfKey : Bytes :=
  mapHeader 4 ++ (string "command" ++ string "SET") ++ (string "key" ++ strHeader 0)

/-- The text of a key whose length is stored as zero stands behind an empty key. -/
theorem exists_encode_set_eq_of_storedLength {key : String} (value : String) (expiry : Int64)
    (h : storedLength (Utf8.encode key).length = 0) :
    ∃ back, (Command.set key value (some expiry)).encode =
      frontOfKey ++ (Utf8.encode key ++ back) := by
  have hheader : strHeader (Utf8.encode key).length = strHeader 0 := by
    unfold strHeader
    rw [h]
    rfl
  have hkey : string key = strHeader 0 ++ Utf8.encode key := by rw [string, hheader]
  refine ⟨string "value" ++ string value ++ (string "exp" ++ (Value.int expiry).encode), ?_⟩
  rw [encode_set, hkey, frontOfKey]
  simp only [List.append_assoc]

/-- What is read if the text of the key begins with four letters `a`: each of them is a number. -/
def misread : Value :=
  .map [(.str "command", .str "SET"), (.str "key", .str ""), (.int 97, .int 97), (.int 97, .int 97)]

theorem encode_misread : misread.encode = frontOfKey ++ List.replicate 4 0x61 := by decide

/-- The four letters end the object, whatever stands behind them, and there is no value in it. -/
theorem ofPayload_misread_append (rest : Bytes) :
    ofPayload (misread.encode ++ rest) = .error (.noTextField .set "value") := by
  have hstorable : misread.Storable := by
    refine .map_of_forall (by decide) ?_
    simp only [List.forall_mem_cons]
    exact ⟨⟨.str (by decide), .str (by decide)⟩, ⟨.str (by decide), .str (by decide)⟩,
      ⟨.int 97, .int 97⟩, ⟨.int 97, .int 97⟩, List.forall_mem_nil _⟩
  have hread : Value.ofPayload (misread.encode ++ rest) = .ok misread :=
    Value.ofPayload_denotes_append (denotes_encode hstorable) rest
  rw [ofPayload, bind_of_eq_ok hread]
  decide

/-- Letters of ASCII are one byte each. -/
theorem encode_ofList_replicate (n : Nat) :
    Utf8.encode (String.ofList (List.replicate n 'a')) = List.replicate n 0x61 := by
  induction n with
  | zero => rfl
  | succ n ih =>
    rw [List.replicate_succ, List.replicate_succ, String.ofList_cons, Utf8.encode_append, ih]
    rfl

/-- A command with a key of so many letters is refused, because its value is not found. -/
theorem ofPayload_encode_set_replicate {n : Nat} (hstored : storedLength n = 0) (hlong : 4 ≤ n)
    (value : String) (expiry : Int64) :
    ofPayload (Command.set (String.ofList (List.replicate n 'a')) value (some expiry)).encode =
      .error (.noTextField .set "value") := by
  have hkey := encode_ofList_replicate n
  have hlength : storedLength (Utf8.encode (String.ofList (List.replicate n 'a'))).length = 0 := by
    rwa [hkey, List.length_replicate]
  obtain ⟨back, hback⟩ := exists_encode_set_eq_of_storedLength value expiry hlength
  have hletters : List.replicate n (0x61 : UInt8) =
      List.replicate 4 0x61 ++ List.replicate (n - 4) 0x61 := by
    rw [List.replicate_append_replicate, Nat.add_sub_cancel' hlong]
  rw [hback, hkey, hletters, List.append_assoc, ← List.append_assoc frontOfKey, ← encode_misread]
  exact ofPayload_misread_append _

/-- A key without quotes and spaces is one token of its line. -/
theorem tokenize_set_of_bare {key : String} (hne : key.toList ≠ []) (hquote : '"' ∉ key.toList)
    (hspace : ' ' ∉ key.toList) :
    tokenize ("SET " ++ key ++ " v 5") = .ok ["SET", key, "v", "5"] := by
  have hline : ("SET " ++ key ++ " v 5").toList =
      "SET".toList ++ ' ' :: (key.toList ++ ' ' :: ("v".toList ++ ' ' :: "5".toList)) := by
    simp
  have hrenders : Renders (["SET", key, "v", "5"].map String.toList)
      ("SET " ++ key ++ " v 5").toList := by
    rw [hline]
    exact .cons (.bare (by decide) (by decide)) (.cons (.bare hne hspace)
      (.cons (.bare (by decide) (by decide)) (.last (.bare (by decide) (by decide)))))
  have hquotes : ∀ token ∈ ["SET", key, "v", "5"].map String.toList, '"' ∉ token := by
    simp only [List.map_cons, List.map_nil, List.forall_mem_cons]
    exact ⟨by decide, hquote, by decide, by decide, List.forall_mem_nil _⟩
  rw [tokenize_of_renders hrenders hquotes]
  simp

/-- Behind a key of `2 ^ 32` letters an expiry is lost.  The line says its command, but what is read
from the bytes of this command has an empty key and no value, and so it is refused. -/
theorem expiry_behind_overlong_key_is_lost :
    let key := String.ofList (List.replicate (2 ^ 32) 'a')
    let line := "SET " ++ key ++ " v 5"
    let c := Command.set key "v" (some 5)
    tokenize line = .ok ["SET", key, "v", "5"] ∧
      CommandName.ofText? "SET" = some .set ∧
      Text.Numeral "5".toList 5 ∧
      parse line = .ok c ∧
      ofPayload c.encode = .error (.noTextField .set "value") := by
  intro key line c
  have hkey : key.toList = List.replicate (2 ^ 32) 'a' := String.toList_ofList
  have hletter : ∀ letter ∈ key.toList, letter = 'a' := fun letter hmem =>
    List.eq_of_mem_replicate (hkey ▸ hmem)
  have hne : key.toList ≠ [] := by
    rw [hkey, Ne, List.replicate_eq_nil_iff]
    decide
  have htokens : tokenize line = .ok ["SET", key, "v", "5"] :=
    tokenize_set_of_bare hne (fun hmem => absurd (hletter _ hmem) (by decide))
      (fun hmem => absurd (hletter _ hmem) (by decide))
  have hset : CommandName.ofText? "SET" = some .set := by decide
  have hfive : Text.Numeral "5".toList 5 := .plain (Text.digits_iff.mpr (by decide))
  have hparse : parse line = .ok c := by
    rw [parse_set_of_tokens htokens hset, readExpiry_eq_ok hfive (by decide) (by decide)]
    rfl
  exact ⟨htokens, hset, hfive, hparse,
    ofPayload_encode_set_replicate (by decide) (by decide) "v" 5⟩

end Command
end KeyValueClient
