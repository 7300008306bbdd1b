import KeyValueClient.MessagePack.Value
import Mathlib.Algebra.Group.Nat.Defs

/-!
# Values as trees

The members of a container are values again, so statements about all values are proved by induction
on the tree (`Value.induction`).  Three notions are defined by the same recursion, each with the
lemma that reads it off a list of members.

* `nesting`: how deep containers stand in one another.  Arrays, maps and extensions are the
  containers, and an extension has no members.
* `Storable`: every length in the tree can be stored in four bytes.
* `canonical`: every integer is held in the range that a reader gives it, so that a `uint` is above
  the range of `int`.  Nothing else changes, the nesting included (`nesting_canonical`).
-/

namespace KeyValueClient
namespace Value

/-! ## Induction -/

/-- Induction on values, with the members of a container one by one. -/
@[elab_as_elim, induction_eliminator]
theorem induction {motive : Value → Prop} (nil : motive .nil) (bool : ∀ b, motive (.bool b))
    (int : ∀ i, motive (.int i)) (uint : ∀ n, motive (.uint n)) (float : ∀ x, motive (.float x))
    (str : ∀ text, motive (.str text)) (bin : ∀ bytes, motive (.bin bytes))
    (array : ∀ items, (∀ item ∈ items, motive item) → motive (.array items))
    (map : ∀ entries, (∀ entry ∈ entries, motive entry.1 ∧ motive entry.2) →
      motive (.map entries))
    (ext : ∀ tag payload, motive (.ext tag payload)) (v : Value) : motive v := by
  refine @Value.rec motive (fun items => ∀ item ∈ items, motive item)
    (fun entries => ∀ entry ∈ entries, motive entry.1 ∧ motive entry.2)
    (fun entry => motive entry.1 ∧ motive entry.2) nil bool int uint float str bin array map ext
    ?_ ?_ ?_ ?_ ?_ v
  · intro _ h
    exact absurd h List.not_mem_nil
  · intro _ _ hitem hitems
    exact List.forall_mem_cons.mpr ⟨hitem, hitems⟩
  · intro _ h
    exact absurd h List.not_mem_nil
  · intro _ _ hentry hentries
    exact List.forall_mem_cons.mpr ⟨hentry, hentries⟩
  · intro _ _ hkey hvalue
    exact ⟨hkey, hvalue⟩

/-! ## Nesting -/

mutual

/-- How deep the containers of a value are nested. -/
def nesting : Value → Nat
  | .array items => itemsNesting items + 1
  | .map entries => entriesNesting entries + 1
  | .ext _ _ => 1
  | _ => 0

/-- The deepest nesting in a list of values. -/
def itemsNesting : List Value → Nat
  | [] => 0
  | item :: items => max item.nesting (itemsNesting items)

/-- The deepest nesting in a list of entries. -/
def entriesNesting : List (Value × Value) → Nat
  | [] => 0
  | entry :: entries => max (max entry.1.nesting entry.2.nesting) (entriesNesting entries)

end

theorem itemsNesting_le_iff {items : List Value} {levels : Nat} :
    itemsNesting items ≤ levels ↔ ∀ item ∈ items, item.nesting ≤ levels := by
  induction items with
  | nil => simp [itemsNesting]
  | cons item items ih => rw [itemsNesting, Nat.max_le, ih, List.forall_mem_cons]

theorem entriesNesting_le_iff {entries : List (Value × Value)} {levels : Nat} :
    entriesNesting entries ≤ levels ↔
      ∀ entry ∈ entries, entry.1.nesting ≤ levels ∧ entry.2.nesting ≤ levels := by
  induction entries with
  | nil => simp [entriesNesting]
  | cons entry entries ih =>
    rw [entriesNesting, Nat.max_le, Nat.max_le, ih, List.forall_mem_cons]

/-- A container fits one level more than its members. -/
theorem nesting_array_le_succ_iff {items : List Value} {levels : Nat} :
    (Value.array items).nesting ≤ levels + 1 ↔ ∀ item ∈ items, item.nesting ≤ levels := by
  rw [nesting, Nat.add_le_add_iff_right, itemsNesting_le_iff]

theorem nesting_map_le_succ_iff {entries : List (Value × Value)} {levels : Nat} :
    (Value.map entries).nesting ≤ levels + 1 ↔
      ∀ entry ∈ entries, entry.1.nesting ≤ levels ∧ entry.2.nesting ≤ levels := by
  rw [nesting, Nat.add_le_add_iff_right, entriesNesting_le_iff]

/-! ## Lengths -/

/-- Every length in a value can be stored in four bytes. -/
inductive Storable : Value → Prop
  | nil : Storable .nil
  | bool (b : Bool) : Storable (.bool b)
  | int (i : Int64) : Storable (.int i)
  | uint (n : UInt64) : Storable (.uint n)
  | float (x : Binary64) : Storable (.float x)
  | str {text : String} (h : (Utf8.encode text).length < 2 ^ 32) : Storable (.str text)
  | bin {bytes : Bytes} (h : bytes.length < 2 ^ 32) : Storable (.bin bytes)
  | array {items : List Value} (h : items.length < 2 ^ 32)
      (hitems : ∀ item ∈ items, Storable item) : Storable (.array items)
  | map {entries : List (Value × Value)} (h : entries.length < 2 ^ 32)
      (hkeys : ∀ entry ∈ entries, Storable entry.1)
      (hvalues : ∀ entry ∈ entries, Storable entry.2) : Storable (.map entries)
  | ext {tag : Int8} {payload : Bytes} (h : payload.length < 2 ^ 32) : Storable (.ext tag payload)

/-- A map can be stored entry by entry. -/
theorem Storable.map_of_forall {entries : List (Value × Value)} (h : entries.length < 2 ^ 32)
    (hentries : ∀ entry ∈ entries, Storable entry.1 ∧ Storable entry.2) : Storable (.map entries) :=
  .map h (fun entry hentry => (hentries entry hentry).1)
    (fun entry hentry => (hentries entry hentry).2)

/-! ## Canonical values -/

mutual

/-- The value with each `uint` in the range of `int` held as an `int`. -/
def canonical : Value → Value
  | .uint n => if n.toNat < 2 ^ 63 then .int (Int64.ofNat n.toNat) else .uint n
  | .array items => .array (canonicalItems items)
  | .map entries => .map (canonicalEntries entries)
  | v => v

/-- The canonical values of a list. -/
def canonicalItems : List Value → List Value
  | [] => []
  | item :: items => item.canonical :: canonicalItems items

/-- The entries of a list with canonical keys and values. -/
def canonicalEntries : List (Value × Value) → List (Value × Value)
  | [] => []
  | entry :: entries => (entry.1.canonical, entry.2.canonical) :: canonicalEntries entries

end

theorem canonicalItems_eq_map (items : List Value) :
    canonicalItems items = items.map canonical := by
  induction items with
  | nil => rfl
  | cons item items ih => rw [canonicalItems, ih, List.map_cons]

theorem canonicalEntries_eq_map (entries : List (Value × Value)) :
    canonicalEntries entries =
      entries.map fun entry => (entry.1.canonical, entry.2.canonical) := by
  induction entries with
  | nil => rfl
  | cons entry entries ih => rw [canonicalEntries, ih, List.map_cons]

@[simp] theorem canonical_int (i : Int64) : (Value.int i).canonical = .int i := by
  rw [canonical] <;> simp

@[simp] theorem canonical_str (text : String) : (Value.str text).canonical = .str text := by
  rw [canonical] <;> simp

/-- A `uint` is held as it is or as the `int` of the same number. -/
theorem canonical_uint (n : UInt64) :
    (Value.uint n).canonical = .uint n ∨
      ∃ i : Int64, i.toInt = n.toNat ∧ (Value.uint n).canonical = .int i := by
  rw [canonical]
  by_cases hsmall : n.toNat < 2 ^ 63
  · rw [if_pos hsmall]
    refine .inr ⟨Int64.ofNat n.toNat, ?_, rfl⟩
    rw [← Int64.ofInt_eq_ofNat]
    exact Int64.toInt_ofInt_of_le (by omega) (by omega)
  · rw [if_neg hsmall]
    exact .inl rfl

theorem canonical_array (items : List Value) :
    (Value.array items).canonical = .array (items.map canonical) := by
  rw [canonical, canonicalItems_eq_map]

theorem canonical_map (entries : List (Value × Value)) :
    (Value.map entries).canonical =
      .map (entries.map fun entry => (entry.1.canonical, entry.2.canonical)) := by
  rw [canonical, canonicalEntries_eq_map]

/-- Values that keep their nesting keep it in a list. -/
theorem itemsNesting_map {items : List Value} {f : Value → Value}
    (h : ∀ item ∈ items, (f item).nesting = item.nesting) :
    itemsNesting (items.map f) = itemsNesting items := by
  induction items with
  | nil => rfl
  | cons item items ih =>
    obtain ⟨hitem, hitems⟩ := List.forall_mem_cons.mp h
    rw [List.map_cons, itemsNesting, itemsNesting, hitem, ih hitems]

theorem entriesNesting_map {entries : List (Value × Value)} {f : Value × Value → Value × Value}
    (h : ∀ entry ∈ entries,
      (f entry).1.nesting = entry.1.nesting ∧ (f entry).2.nesting = entry.2.nesting) :
    entriesNesting (entries.map f) = entriesNesting entries := by
  induction entries with
  | nil => rfl
  | cons entry entries ih =>
    obtain ⟨⟨hkey, hvalue⟩, hentries⟩ := List.forall_mem_cons.mp h
    rw [List.map_cons, entriesNesting, entriesNesting, hkey, hvalue, ih hentries]

/-- Canonical values are nested like the values that they come from. -/
theorem nesting_canonical (v : Value) : v.canonical.nesting = v.nesting := by
  induction v with
  | nil | bool | int | float | str | bin | ext => rfl
  | uint n =>
    rw [canonical]
    split <;> rfl
  | array items ih => rw [canonical_array, nesting, nesting, itemsNesting_map ih]
  | map entries ih => rw [canonical_map, nesting, nesting, entriesNesting_map ih]

end Value
end KeyValueClient
