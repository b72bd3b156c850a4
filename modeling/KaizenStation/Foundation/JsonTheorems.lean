/-
KaizenStation.Foundation.JsonTheorems — the reader reads every text of the
fragment, the writer writes one, and a text is never much longer than what
it says.

`readObject_of_objectText` makes the grammar unambiguous: two readings of
one text are the reader's. `utf8Length_membersText` bounds the bytes of a text
by the characters of its strings and the digits of its numbers, however the
strings are written.
-/
import KaizenStation.Foundation.Json

namespace KaizenStation.Foundation.Json

/-! ## Characters -/

theorem hexDigit?_bound {c : Char} {v : Nat} (h : hexDigit? c = some v) :
    v < 16 ∧ c.toNat < 128 := by
  unfold hexDigit? at h
  split at h
  · next hc =>
    have h1 : 48 ≤ c.toNat := hc.1
    have h2 : c.toNat ≤ 57 := hc.2
    cases h
    exact ⟨by omega, by omega⟩
  · split at h
    · next hc =>
      have h1 : 97 ≤ c.toNat := hc.1
      have h2 : c.toNat ≤ 102 := hc.2
      cases h
      exact ⟨by omega, by omega⟩
    · split at h
      · next hc =>
        have h1 : 65 ≤ c.toNat := hc.1
        have h2 : c.toNat ≤ 70 := hc.2
        cases h
        exact ⟨by omega, by omega⟩
      · cases h

theorem hex4?_ascii {a b c d : Char} {n : Nat} (h : hex4? a b c d = some n) :
    a.toNat < 128 ∧ b.toNat < 128 ∧ c.toNat < 128 ∧ d.toNat < 128 := by
  unfold hex4? at h
  split at h
  · next ha hb hc hd =>
    exact ⟨(hexDigit?_bound ha).2, (hexDigit?_bound hb).2, (hexDigit?_bound hc).2,
      (hexDigit?_bound hd).2⟩
  · cases h

theorem charOf?_toNat (c : Char) : charOf? c.toNat = some c := by
  have hv : c.toNat.isValidChar := c.valid
  simp [charOf?, hv]

/-- A character is never half of a surrogate pair. -/
theorem not_surrogate (c : Char) : ¬ (0xD800 ≤ c.toNat ∧ c.toNat < 0xDC00) := by
  have hv : c.toNat < 0xD800 ∨ 0xDFFF < c.toNat ∧ c.toNat < 0x110000 := c.valid
  omega

theorem readChar_of_charText {c : Char} {t : List Char} (h : CharText c t) (rest : List Char) :
    readChar (t ++ rest) = some (c, rest) := by
  cases h with
  | raw hq hb hc =>
    rw [List.singleton_append, readChar.eq_def]
    split
    · next heq => cases heq; exact absurd rfl hb
    · next heq => cases heq; exact absurd rfl hb
    · next heq =>
      cases heq
      rw [if_neg]
      rintro (h | h | h)
      · exact hq h
      · exact hb h
      · omega
    · next heq => cases heq
  | @short e he =>
    have hu : e ≠ 'u' := by
      rintro rfl
      simp [shortEscapes] at he
    have hfind : shortEscapes.find? (fun p => decide (p.1 = e)) = some (e, c) := by
      simp only [shortEscapes, List.mem_cons, Prod.mk.injEq, List.not_mem_nil, or_false] at he
      rcases he with ⟨rfl, rfl⟩ | ⟨rfl, rfl⟩ | ⟨rfl, rfl⟩ | ⟨rfl, rfl⟩ | ⟨rfl, rfl⟩ | ⟨rfl, rfl⟩ |
        ⟨rfl, rfl⟩ | ⟨rfl, rfl⟩ <;> rfl
    show readChar ('\\' :: e :: rest) = some (c, rest)
    rw [readChar.eq_def]
    split
    · next heq =>
      cases heq
      exact absurd rfl hu
    · next heq =>
      cases heq
      rw [hfind]
      rfl
    · next hne heq =>
      cases heq
      exact (hne e rest rfl rfl).elim
    · next heq => cases heq
  | unicode hx =>
    show readChar ('\\' :: 'u' :: _ :: _ :: _ :: _ :: rest) = some (c, rest)
    simp only [readChar, hx, if_neg (not_surrogate c), charOf?_toNat, Option.map_some]
  | @surrogates h₁ h₂ h₃ h₄ l₁ l₂ l₃ l₄ hi lo hx hhi lx hlo hc =>
    show readChar ('\\' :: 'u' :: h₁ :: h₂ :: h₃ :: h₄ :: '\\' :: 'u' :: l₁ :: l₂ :: l₃ :: l₄ ::
      rest) = some (c, rest)
    have hcode : 0x10000 + (0xD800 + hi - 0xD800) * 0x400 + (0xDC00 + lo - 0xDC00) = c.toNat := by
      omega
    simp only [readChar, hx, lx, hcode, charOf?_toNat, Option.map_some]
    rw [if_pos (by omega), if_pos (by omega)]

/-- No written character starts with a quote. -/
theorem charText_head {c : Char} {t : List Char} (h : CharText c t) :
    ∃ d ds, t = d :: ds ∧ d ≠ '"' := by
  cases h with
  | raw hq => exact ⟨c, [], rfl, hq⟩
  | short => exact ⟨'\\', _, rfl, by decide⟩
  | unicode => exact ⟨'\\', _, rfl, by decide⟩
  | surrogates => exact ⟨'\\', _, rfl, by decide⟩

/-! ## Strings -/

theorem length_le_of_stringBody {cs ts : List Char} (h : StringBody cs ts) :
    cs.length ≤ ts.length := by
  induction h with
  | nil => exact Nat.le_refl _
  | cons hc _ ih =>
    obtain ⟨d, ds, rfl, _⟩ := charText_head hc
    simp only [List.length_cons, List.length_append]
    omega

theorem readBody_of_stringBody {cs ts : List Char} (h : StringBody cs ts) (rest : List Char) :
    ∀ fuel, cs.length < fuel → readBody fuel (ts ++ '"' :: rest) = some (cs, rest) := by
  induction h with
  | nil =>
    intro fuel hf
    obtain ⟨fuel, rfl⟩ : ∃ n, fuel = n + 1 := ⟨fuel - 1, by simp at hf; omega⟩
    rfl
  | @cons c cs t ts hc _ ih =>
    intro fuel hf
    obtain ⟨fuel, rfl⟩ : ∃ n, fuel = n + 1 := ⟨fuel - 1, by omega⟩
    have hread := readChar_of_charText hc (ts ++ '"' :: rest)
    have hrest := ih fuel (by simpa using hf)
    obtain ⟨d, ds, rfl, hd⟩ := charText_head hc
    rw [List.append_assoc, readBody.eq_def]
    split
    · next heq => cases heq
    · next heq => exact absurd (List.cons_eq_cons.mp heq).1 hd
    · next hfuel _ =>
      cases hfuel
      rw [List.cons_append] at hread
      simp only [List.cons_append, hread, hrest, Option.bind_eq_bind, Option.bind_some]

theorem readString_of_stringBody {s : String} {t : List Char} (h : StringBody s.toList t)
    (rest : List Char) : readString ('"' :: t ++ '"' :: rest) = some (s, rest) := by
  have hlen := length_le_of_stringBody h
  have hb := readBody_of_stringBody h rest ('"' :: t ++ '"' :: rest).length
    (by simp only [List.length_cons, List.length_append]; omega)
  simp only [List.cons_append] at hb ⊢
  simp only [readString, hb, Option.map_some, String.ofList_toList]

/-! ## Scalars -/

/-- The text after a number does not start with a digit. -/
def NoDigitHead (rest : List Char) : Prop := ∀ c ∈ rest.head?, c.isDigit = false

theorem readNat_toDigits (n : Nat) {rest : List Char} (hr : NoDigitHead rest) :
    readNat (Nat.toDigits 10 n ++ rest) = some (n, rest) := by
  have hd : ∀ c ∈ Nat.toDigits 10 n, c.isDigit = true := fun c hc =>
    Nat.isDigit_of_mem_toDigits (by decide) (by decide) hc
  have hstop : rest.takeWhile Char.isDigit = [] ∧ rest.dropWhile Char.isDigit = rest := by
    cases rest with
    | nil => exact ⟨rfl, rfl⟩
    | cons c rest =>
      have hc := hr c rfl
      simp [hc]
  unfold readNat
  rw [List.takeWhile_append_of_pos hd, List.dropWhile_append_of_pos hd, hstop.1, hstop.2,
    List.append_nil]
  cases hds : Nat.toDigits 10 n with
  | nil => exact absurd hds Nat.toDigits_ne_nil
  | cons d ds => simp only; rw [← hds, Nat.ofDigitChars_ten_toDigits]

/-- A decimal starts with a digit, which none of the other scalars does. -/
theorem readScalar_digits {d : Char} (hd : d.isDigit = true) (l : List Char) :
    readScalar (d :: l) = (readNat (d :: l)).map fun (n, rest) => (.int n, rest) := by
  have ht : d ≠ 't' := by rintro rfl; exact absurd hd (by decide)
  have hf : d ≠ 'f' := by rintro rfl; exact absurd hd (by decide)
  have hm : d ≠ '-' := by rintro rfl; exact absurd hd (by decide)
  have hq : d ≠ '"' := by rintro rfl; exact absurd hd (by decide)
  rw [readScalar.eq_def]
  split <;> next heq => first | rfl | (cases heq; contradiction)

theorem readScalar_of_scalarText {v : Json} {t : List Char} (h : ScalarText v t)
    {rest : List Char} (hr : NoDigitHead rest) : readScalar (t ++ rest) = some (v, rest) := by
  cases h with
  | true => rfl
  | false => rfl
  | int n =>
    cases n with
    | ofNat n =>
      show readScalar (Nat.toDigits 10 n ++ rest) = _
      have hread := readNat_toDigits n hr
      cases hds : Nat.toDigits 10 n with
      | nil => exact absurd hds Nat.toDigits_ne_nil
      | cons d ds =>
        have hmem : d ∈ Nat.toDigits 10 n := by rw [hds]; exact List.mem_cons_self
        have hd := Nat.isDigit_of_mem_toDigits (by decide) (by decide) hmem
        rw [hds] at hread
        rw [List.cons_append] at hread ⊢
        rw [readScalar_digits hd, hread]
        rfl
    | negSucc n =>
      show readScalar ('-' :: (Nat.toDigits 10 (n + 1) ++ rest)) = _
      simp only [readScalar, readNat_toDigits (n + 1) hr, Option.map_some]
      rfl
  | @str s t hb =>
    have hs := readString_of_stringBody hb rest
    have happ : ('"' :: t ++ ['"']) ++ rest = '"' :: t ++ '"' :: rest := by simp
    rw [happ]
    rw [List.cons_append] at hs ⊢
    simp only [readScalar, hs, Option.map_some]

/-! ## Objects -/

theorem noDigitHead_cons {c : Char} (rest : List Char) (h : c.isDigit = false) :
    NoDigitHead (c :: rest) := by
  intro d hd
  cases hd
  exact h

theorem readMembers_of_membersText {ms : List (String × Json)} {t : List Char}
    (h : MembersText ms t) (rest : List Char) :
    ∀ fuel, ms.length ≤ fuel → readMembers fuel (t ++ '}' :: rest) = some (ms, rest) := by
  induction h with
  | @last k v kt vt hk hv =>
    intro fuel hf
    obtain ⟨fuel, rfl⟩ : ∃ n, fuel = n + 1 := ⟨fuel - 1, by simp at hf; omega⟩
    have hks := readString_of_stringBody hk (':' :: vt ++ '}' :: rest)
    have hbrace : '}'.isDigit = false := by decide
    have hvs := readScalar_of_scalarText hv (noDigitHead_cons rest hbrace)
    have happ : ('"' :: kt ++ '"' :: ':' :: vt) ++ '}' :: rest =
        '"' :: kt ++ '"' :: (':' :: vt ++ '}' :: rest) := by simp
    rw [happ, readMembers, hks]
    simp [hvs]
  | @cons k v kt vt ms mt hk hv _ ih =>
    intro fuel hf
    obtain ⟨fuel, rfl⟩ : ∃ n, fuel = n + 1 := ⟨fuel - 1, by simp at hf; omega⟩
    have hks := readString_of_stringBody hk (':' :: vt ++ ',' :: (mt ++ '}' :: rest))
    have hvs := readScalar_of_scalarText hv
      (noDigitHead_cons (mt ++ '}' :: rest) (by decide : ','.isDigit = false))
    have hms := ih fuel (by simpa using hf)
    have happ : ('"' :: kt ++ '"' :: ':' :: vt ++ ',' :: mt) ++ '}' :: rest =
        '"' :: kt ++ '"' :: (':' :: vt ++ ',' :: (mt ++ '}' :: rest)) := by simp
    rw [happ, readMembers, hks]
    simp [hvs, hms]

theorem length_le_of_membersText {ms : List (String × Json)} {t : List Char}
    (h : MembersText ms t) : ms.length ≤ t.length := by
  induction h with
  | last => simp
  | cons _ _ _ ih =>
    simp only [List.length_cons, List.length_append]
    omega

/-- The reader reads every text of the fragment as what it says. -/
theorem readObject_of_objectText {ms : List (String × Json)} {text : List Char}
    (h : ObjectText ms text) : readObject text = some ms := by
  obtain ⟨t, ht, rfl⟩ := h
  have hlen := length_le_of_membersText ht
  have hread := readMembers_of_membersText ht [] (t ++ ['}']).length (by simp; omega)
  simp only [List.cons_append, readObject, hread]

/-! ## What the writer writes -/

theorem charText_printChar (c : Char) : CharText c (printChar c) := by
  have hcode : ∀ n, n < 32 → hex4? '0' '0' (hexChar (n / 16)) (hexChar n) = some n := by decide
  unfold printChar
  split
  · next h => subst h; exact .short (by decide)
  · next hq =>
    split
    · next h => subst h; exact .short (by decide)
    · next hb =>
      split
      · next hc => exact .raw hq hb hc
      · next hc =>
        split
        · next h => subst h; exact .short (by decide)
        · split
          · next h => subst h; exact .short (by decide)
          · split
            · next h => subst h; exact .short (by decide)
            · split
              · next h =>
                have : c = Char.ofNat 8 := Char.toNat_inj.mp h
                subst this
                exact .short (by decide)
              · split
                · next h =>
                  have : c = Char.ofNat 12 := Char.toNat_inj.mp h
                  subst this
                  exact .short (by decide)
                · exact .unicode (hcode c.toNat (Nat.lt_of_not_le hc))

theorem stringBody_print (cs : List Char) : StringBody cs (cs.flatMap printChar) := by
  induction cs with
  | nil => exact .nil
  | cons c cs ih => exact .cons (charText_printChar c) ih

theorem scalarText_of_print {v : Json} {t : List Char} (h : printScalar v = some t) :
    ScalarText v t := by
  unfold printScalar at h
  split at h <;> cases h
  · exact .true
  · exact .false
  · exact .int _
  · exact .str (stringBody_print _)

theorem membersText_of_print {ms : List (String × Json)} {t : List Char}
    (h : printMembers ms = some t) : MembersText ms t := by
  fun_induction printMembers ms generalizing t with
  | case1 => cases h
  | case2 k v =>
    obtain ⟨vt, hv, rfl⟩ := Option.map_eq_some_iff.mp h
    have := MembersText.last (stringBody_print k.toList) (scalarText_of_print hv)
    simpa [printString] using this
  | case3 k v ms _ ih =>
    obtain ⟨vt, hv, h⟩ := Option.bind_eq_some_iff.mp h
    obtain ⟨mt, hm, h⟩ := Option.bind_eq_some_iff.mp h
    cases h
    have := MembersText.cons (stringBody_print k.toList) (scalarText_of_print hv) (ih hm)
    simpa [printString] using this

theorem objectText_of_print {ms : List (String × Json)} {t : List Char}
    (h : printObject ms = some t) : ObjectText ms t := by
  obtain ⟨mt, hm, rfl⟩ := Option.map_eq_some_iff.mp h
  exact ⟨mt, membersText_of_print hm, rfl⟩

/-! ## Sizes -/

/-- The bytes of a text in UTF-8. -/
def utf8Length (l : List Char) : Nat := (l.map Char.utf8Size).sum

@[simp] theorem utf8Length_nil : utf8Length [] = 0 := rfl

@[simp] theorem utf8Length_cons (c : Char) (l : List Char) :
    utf8Length (c :: l) = c.utf8Size + utf8Length l := by simp [utf8Length]

@[simp] theorem utf8Length_append (l l' : List Char) :
    utf8Length (l ++ l') = utf8Length l + utf8Length l' := by simp [utf8Length]

theorem length_le_utf8Length (l : List Char) : l.length ≤ utf8Length l := by
  induction l with
  | nil => exact Nat.le_refl _
  | cons c l ih =>
    have := c.utf8Size_pos
    rw [List.length_cons, utf8Length_cons]
    omega

theorem utf8Size_ascii {c : Char} (h : c.toNat < 128) : c.utf8Size = 1 := by
  rw [Char.utf8Size_eq_one_iff, UInt32.le_iff_toNat_le]
  exact Nat.le_of_lt_succ h

/-- A character takes at most twelve bytes, as a surrogate pair. -/
theorem utf8Length_charText {c : Char} {t : List Char} (h : CharText c t) :
    utf8Length t ≤ 12 := by
  have hb : '\\'.utf8Size = 1 := by decide
  have hu : 'u'.utf8Size = 1 := by decide
  cases h with
  | raw =>
    have := c.utf8Size_le_four
    simp only [utf8Length_cons, utf8Length_nil]
    omega
  | @short e =>
    have := e.utf8Size_le_four
    simp only [utf8Length_cons, utf8Length_nil]
    omega
  | unicode hx =>
    obtain ⟨h1, h2, h3, h4⟩ := hex4?_ascii hx
    simp only [utf8Length_cons, utf8Length_nil, hb, hu, utf8Size_ascii h1, utf8Size_ascii h2,
      utf8Size_ascii h3, utf8Size_ascii h4]
    omega
  | surrogates hx _ lx =>
    obtain ⟨h1, h2, h3, h4⟩ := hex4?_ascii hx
    obtain ⟨k1, k2, k3, k4⟩ := hex4?_ascii lx
    simp only [utf8Length_cons, utf8Length_nil, hb, hu, utf8Size_ascii h1, utf8Size_ascii h2,
      utf8Size_ascii h3, utf8Size_ascii h4, utf8Size_ascii k1, utf8Size_ascii k2,
      utf8Size_ascii k3, utf8Size_ascii k4]
    omega

theorem utf8Length_stringBody {cs ts : List Char} (h : StringBody cs ts) :
    utf8Length ts ≤ 12 * cs.length := by
  induction h with
  | nil => exact Nat.le_refl _
  | cons hc _ ih =>
    have := utf8Length_charText hc
    rw [utf8Length_append, List.length_cons]
    omega

/-- A decimal of at most `k` digits, with its sign. -/
theorem decimal_length {n : Int} {k : Nat} (hk : 0 < k) (h : n.natAbs < 10 ^ k) :
    (decimal n).length ≤ k + 1 := by
  cases n with
  | ofNat n =>
    have hlen : (Nat.toDigits 10 n).length ≤ k :=
      (Nat.length_toDigits_le_iff (by decide) hk).mpr h
    show (Nat.toDigits 10 n).length ≤ k + 1
    omega
  | negSucc n =>
    have hlen : (Nat.toDigits 10 (n + 1)).length ≤ k :=
      (Nat.length_toDigits_le_iff (by decide) hk).mpr h
    show (Nat.toDigits 10 (n + 1)).length + 1 ≤ k + 1
    omega

/-- At most this many bytes are needed for a scalar. -/
def scalarBound : Json → Nat
  | .int n => (decimal n).length
  | .str s => 12 * s.toList.length + 2
  | _ => 5

theorem utf8Length_ascii {l : List Char} (h : ∀ c ∈ l, c.toNat < 128) :
    utf8Length l = l.length := by
  induction l with
  | nil => rfl
  | cons c l ih =>
    rw [utf8Length_cons, utf8Size_ascii (h c List.mem_cons_self),
      ih fun d hd => h d (List.mem_cons_of_mem _ hd), List.length_cons, Nat.add_comm]

theorem decimal_ascii (n : Int) : ∀ c ∈ decimal n, c.toNat < 128 := by
  have hdigit : ∀ {c : Char}, c.isDigit = true → c.toNat < 128 := fun {c} h => by
    have hle := (Char.isDigit_iff_toNat.mp h).2
    have hnine : '9'.toNat = 57 := by decide
    omega
  intro c hc
  cases n with
  | ofNat n => exact hdigit (Nat.isDigit_of_mem_toDigits (by decide) (by decide) hc)
  | negSucc n =>
    rcases List.mem_cons.mp hc with rfl | hc
    · decide
    · exact hdigit (Nat.isDigit_of_mem_toDigits (by decide) (by decide) hc)

theorem utf8Length_scalarText {v : Json} {t : List Char} (h : ScalarText v t) :
    utf8Length t ≤ scalarBound v := by
  cases h with
  | true => decide
  | false => decide
  | int n => exact Nat.le_of_eq (utf8Length_ascii (decimal_ascii n))
  | str hb =>
    have := utf8Length_stringBody hb
    have hq : '"'.utf8Size = 1 := by decide
    simp only [List.cons_append, utf8Length_cons, utf8Length_append, utf8Length_nil, hq,
      scalarBound]
    omega

/-- The bytes of the members: names, values, and four signs for each. -/
def membersBound (ms : List (String × Json)) : Nat :=
  (ms.map fun (k, v) => 12 * k.toList.length + scalarBound v + 4).sum

theorem utf8Length_membersText {ms : List (String × Json)} {t : List Char}
    (h : MembersText ms t) : utf8Length t ≤ membersBound ms := by
  have hq : '"'.utf8Size = 1 := by decide
  have hc : ':'.utf8Size = 1 := by decide
  have hm : ','.utf8Size = 1 := by decide
  induction h with
  | last hk hv =>
    have h1 := utf8Length_stringBody hk
    have h2 := utf8Length_scalarText hv
    simp only [List.cons_append, utf8Length_cons, utf8Length_append, hq, hc, membersBound,
      List.map_cons, List.map_nil, List.sum_cons, List.sum_nil]
    omega
  | cons hk hv _ ih =>
    have h1 := utf8Length_stringBody hk
    have h2 := utf8Length_scalarText hv
    simp only [List.cons_append, utf8Length_cons, utf8Length_append, hq, hc, hm, membersBound,
      List.map_cons, List.sum_cons] at ih ⊢
    omega

theorem utf8Length_objectText {ms : List (String × Json)} {text : List Char}
    (h : ObjectText ms text) : utf8Length text ≤ membersBound ms + 2 := by
  obtain ⟨t, ht, rfl⟩ := h
  have := utf8Length_membersText ht
  have ho : '{'.utf8Size = 1 := by decide
  have hc : '}'.utf8Size = 1 := by decide
  simp only [List.cons_append, utf8Length_cons, utf8Length_append, utf8Length_nil, ho, hc]
  omega

end KaizenStation.Foundation.Json
