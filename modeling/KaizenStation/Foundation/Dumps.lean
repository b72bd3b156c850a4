/-
KaizenStation.Foundation.Dumps — Python's `json.dumps`, compact.

Every character outside printable ASCII is escaped, as `ensure_ascii` asks,
and the separators have no space. How a double is written is a parameter.
An object of strings, integers and Booleans is written in the fragment of
`Json` (`objectText_dumps`), and what the reader of the fragment makes of a
text of `dumps` is, if anything, the object that was written
(`readObject_dumps`).
-/
import KaizenStation.Foundation.JsonTheorems

namespace KaizenStation.Foundation.Json

/-! ## The writer -/

/-- `'\\u{0:04x}'`. -/
def hex4 (n : Nat) : List Char :=
  ['\\', 'u', hexChar (n / 4096), hexChar (n / 256), hexChar (n / 16), hexChar n]

/-- `ESCAPE_DCT`. -/
def escapeDct : List (Char × Char) :=
  [('\\', '\\'), ('"', '"'), (Char.ofNat 8, 'b'), (Char.ofNat 12, 'f'), ('\n', 'n'), ('\r', 'r'),
   ('\t', 't')]

/-- `replace` of `py_encode_basestring_ascii`. -/
def escapeChar (c : Char) : List Char :=
  match escapeDct.find? (·.1 = c) with
  | some (_, e) => ['\\', e]
  | none =>
    if c.toNat < 0x10000 then hex4 c.toNat
    else
      let n := c.toNat - 0x10000
      hex4 (0xD800 + n / 0x400) ++ hex4 (0xDC00 + n % 0x400)

/-- Quotes, backslashes and what is not printable ASCII are replaced. -/
def asciiChar (c : Char) : List Char :=
  if c = '"' ∨ c = '\\' ∨ ¬ (32 ≤ c.toNat ∧ c.toNat ≤ 126) then escapeChar c else [c]

def asciiBody (s : String) : List Char := s.toList.flatMap asciiChar

section Writer

variable (floatRepr : Rat → String)

mutual

def dumps : Json → List Char
  | .null => ['n', 'u', 'l', 'l']
  | .bool true => ['t', 'r', 'u', 'e']
  | .bool false => ['f', 'a', 'l', 's', 'e']
  | .int n => decimal n
  | .float (some x) => (floatRepr x).toList
  | .float none => ['I', 'n', 'f', 'i', 'n', 'i', 't', 'y']
  | .constant name => name.toList
  | .str s => '"' :: asciiBody s ++ ['"']
  | .arr items => '[' :: dumpsItems items ++ [']']
  | .obj members => '{' :: dumpsMembers members ++ ['}']

def dumpsItems : List Json → List Char
  | [] => []
  | [value] => dumps value
  | value :: next :: rest => dumps value ++ ',' :: dumpsItems (next :: rest)

def dumpsMembers : List (String × Json) → List Char
  | [] => []
  | [(name, value)] => '"' :: asciiBody name ++ '"' :: ':' :: dumps value
  | (name, value) :: next :: rest =>
    '"' :: asciiBody name ++ '"' :: ':' :: dumps value ++ ',' :: dumpsMembers (next :: rest)

end

end Writer

/-! ## What can be written -/

/-- A double, as a rational number. -/
def IsDouble (x : Rat) : Prop :=
  ∃ (m : Int) (e : Nat), m.natAbs < 2 ^ 53 ∧ (e ≤ 971 ∧ x = m * 2 ^ e ∨ e ≤ 1074 ∧ x * 2 ^ e = m)

mutual

/-- The value of a Python object that JSON has a text for: numbers are integers
and doubles, of which those that are not finite are constants, and the names
in a dictionary are distinct. -/
def Representable : Json → Prop
  | .float none => False
  | .float (some x) => IsDouble x
  | .constant name => name ∈ ["NaN", "Infinity", "-Infinity"]
  | .arr items => ItemsRepresentable items
  | .obj members => MembersRepresentable members ∧ (members.map (·.1)).Nodup
  | _ => True

def ItemsRepresentable : List Json → Prop
  | [] => True
  | value :: rest => Representable value ∧ ItemsRepresentable rest

def MembersRepresentable : List (String × Json) → Prop
  | [] => True
  | (_, value) :: rest => Representable value ∧ MembersRepresentable rest

end

mutual

/-- How deep lists and dictionaries are nested. -/
def depth : Json → Nat
  | .arr items => itemsDepth items + 1
  | .obj members => membersDepth members + 1
  | _ => 0

def itemsDepth : List Json → Nat
  | [] => 0
  | value :: rest => max (depth value) (itemsDepth rest)

def membersDepth : List (String × Json) → Nat
  | [] => 0
  | (_, value) :: rest => max (depth value) (membersDepth rest)

end

/-- The scalars of the fragment. -/
def IsScalar : Json → Prop
  | .bool _ | .int _ | .str _ => True
  | _ => False

theorem depth_of_isScalar {value : Json} (h : value.IsScalar) : value.depth = 0 := by
  cases value <;> first | rfl | exact h.elim

theorem membersDepth_scalars {members : List (String × Json)}
    (h : ∀ m ∈ members, m.2.IsScalar) : membersDepth members = 0 := by
  induction members with
  | nil => rfl
  | cons m rest ih =>
    have hvalue := depth_of_isScalar (h m (by simp))
    have hrest := ih fun m hm => h m (List.mem_cons_of_mem _ hm)
    simp [membersDepth, hvalue, hrest]

/-! ## Strings -/

theorem hexDigit?_hexChar (n : Nat) : hexDigit? (hexChar n) = some (n % 16) := by
  have hdigit : ∀ k, k < 16 → hexDigit? (Nat.digitChar k) = some k := by decide
  exact hdigit (n % 16) (Nat.mod_lt n (by decide))

theorem hex4?_hex4 {n : Nat} (h : n < 0x10000) :
    hex4? (hexChar (n / 4096)) (hexChar (n / 256)) (hexChar (n / 16)) (hexChar n) = some n := by
  simp only [hex4?, hexDigit?_hexChar, Option.some.injEq]
  omega

theorem charText_escapeChar (c : Char) : CharText c (escapeChar c) := by
  unfold escapeChar
  cases hfind : escapeDct.find? (·.1 = c) with
  | some entry =>
    have hshort : ∀ entry ∈ escapeDct, (entry.2, entry.1) ∈ shortEscapes := by decide
    have hc : entry.1 = c := by simpa using List.find?_some hfind
    exact .short (hc ▸ hshort entry (List.mem_of_find?_eq_some hfind))
  | none =>
    have hmax : c.toNat < 0x110000 := by
      rcases c.valid with h | h
      · exact Nat.lt_trans h (by decide)
      · exact h.2
    simp only
    split
    · next h => exact .unicode (hex4?_hex4 h)
    · exact .surrogates (hex4?_hex4 (by omega)) (by omega) (hex4?_hex4 (by omega)) (by omega)
        (by omega)

theorem charText_asciiChar (c : Char) : CharText c (asciiChar c) := by
  unfold asciiChar
  split
  · exact charText_escapeChar c
  · next h =>
    simp only [not_or, not_not] at h
    exact .raw h.1 h.2.1 h.2.2.1

theorem stringBody_ascii (s : String) : StringBody s.toList (asciiBody s) := by
  unfold asciiBody
  induction s.toList with
  | nil => exact .nil
  | cons c cs ih => exact .cons (charText_asciiChar c) ih

/-! ## Objects of scalars -/

section Texts

variable (floatRepr : Rat → String)

theorem scalarText_dumps {value : Json} (h : value.IsScalar) :
    ScalarText value (dumps floatRepr value) := by
  cases value with
  | bool b =>
    cases b
    · exact .false
    · exact .true
  | int n => exact .int n
  | str s => exact .str (stringBody_ascii s)
  | _ => exact h.elim

theorem membersText_dumps {members : List (String × Json)} (hne : members ≠ [])
    (h : ∀ m ∈ members, m.2.IsScalar) : MembersText members (dumpsMembers floatRepr members) := by
  match members with
  | [] => exact absurd rfl hne
  | [(name, value)] =>
    exact .last (stringBody_ascii name) (scalarText_dumps floatRepr (h (name, value) (by simp)))
  | (name, value) :: next :: rest =>
    have hrest : ∀ m ∈ next :: rest, m.2.IsScalar := fun m hm => h m (List.mem_cons_of_mem _ hm)
    exact .cons (stringBody_ascii name) (scalarText_dumps floatRepr (h (name, value) (by simp)))
      (membersText_dumps (by simp) hrest)

theorem objectText_dumps {members : List (String × Json)} (hne : members ≠ [])
    (h : ∀ m ∈ members, m.2.IsScalar) : ObjectText members (dumps floatRepr (.obj members)) := by
  rw [dumps]
  exact ⟨_, membersText_dumps floatRepr hne h, rfl⟩

/-! ## Reading a text of the writer -/

variable (hrepr : ∀ x rest, readScalar ((floatRepr x).toList ++ rest) = none)
include hrepr

/-- The reader of the fragment reads a scalar as it was written, and refuses
everything else. -/
theorem readScalar_dumps {value read : Json} {rest rest' : List Char}
    (hvalue : value.Representable) (hr : NoDigitHead rest)
    (h : readScalar (dumps floatRepr value ++ rest) = some (read, rest')) :
    read = value ∧ rest' = rest := by
  have hscalar : ∀ {value : Json}, value.IsScalar →
      readScalar (dumps floatRepr value ++ rest) = some (read, rest') →
        read = value ∧ rest' = rest := by
    intro value hv h
    rw [readScalar_of_scalarText (scalarText_dumps floatRepr hv) hr] at h
    cases h
    exact ⟨rfl, rfl⟩
  cases value with
  | null => simp [dumps, readScalar, readNat] at h
  | bool b => exact hscalar trivial h
  | int n => exact hscalar trivial h
  | str s => exact hscalar trivial h
  | float x =>
    cases x with
    | none => exact hvalue.elim
    | some x => simp [dumps, hrepr] at h
  | constant name =>
    simp only [Representable, List.mem_cons, List.not_mem_nil, or_false] at hvalue
    rcases hvalue with rfl | rfl | rfl <;> simp [dumps, readScalar, readNat] at h
  | arr items => simp [dumps, readScalar, readNat] at h
  | obj members => simp [dumps, readScalar, readNat] at h

theorem readMembers_dumps {members read : List (String × Json)} {rest' : List Char}
    (hmembers : MembersRepresentable members) {fuel : Nat}
    (h : readMembers fuel (dumpsMembers floatRepr members ++ ['}']) = some (read, rest')) :
    read = members := by
  have hname : ∀ name rest, readString ('"' :: asciiBody name ++ '"' :: rest) = some (name, rest) :=
    fun name rest => readString_of_stringBody (stringBody_ascii name) rest
  match members, fuel with
  | _, 0 => cases h
  | [], fuel + 1 => simp [dumpsMembers, readMembers, readString] at h
  | [(name, value)], fuel + 1 =>
    simp only [dumpsMembers, List.cons_append, List.append_assoc] at h
    rw [readMembers, ← List.cons_append, hname] at h
    cases hv : readScalar (dumps floatRepr value ++ ['}']) with
    | none => simp [hv] at h
    | some result =>
      obtain ⟨value', rest⟩ := result
      obtain ⟨rfl, rfl⟩ := readScalar_dumps floatRepr hrepr hmembers.1
        (noDigitHead_cons [] (by decide)) hv
      simp [hv] at h
      exact h.1.symm
  | (name, value) :: next :: rest, fuel + 1 =>
    simp only [dumpsMembers, List.cons_append, List.append_assoc] at h
    rw [readMembers, ← List.cons_append, hname] at h
    cases hv : readScalar (dumps floatRepr value ++
        ',' :: (dumpsMembers floatRepr (next :: rest) ++ ['}'])) with
    | none => simp [hv] at h
    | some result =>
      obtain ⟨value', rest''⟩ := result
      obtain ⟨rfl, rfl⟩ := readScalar_dumps floatRepr hrepr hmembers.1
        (noDigitHead_cons _ (by decide)) hv
      cases hm : readMembers fuel (dumpsMembers floatRepr (next :: rest) ++ ['}']) with
      | none => simp [hv, hm] at h
      | some result =>
        obtain ⟨read', rest''⟩ := result
        obtain rfl := readMembers_dumps hmembers.2 hm
        simp [hv, hm] at h
        exact h.1.symm

/-- What is read from a text of `dumps` is what was written. -/
theorem readObject_dumps {members read : List (String × Json)}
    (hmembers : (Json.obj members).Representable)
    (h : readObject (dumps floatRepr (.obj members)) = some read) : read = members := by
  rw [dumps, List.cons_append, readObject] at h
  split at h
  · next read' hread =>
    cases h
    exact readMembers_dumps floatRepr hrepr hmembers.1 hread
  · cases h

end Texts

end KaizenStation.Foundation.Json
