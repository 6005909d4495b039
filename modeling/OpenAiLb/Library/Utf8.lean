import Mathlib.Data.List.Basic

/-!
# UTF-8

The encoding of a text is that of its characters, one after the other. A byte below 128 stands in
it for the character of that number and is no part of another one, so what splits the bytes at
such a byte splits the text at the character.
-/

/-- The bytes of a text. -/
def encoded (text : List Char) : List UInt8 := text.flatMap String.utf8EncodeChar

section Utf8

@[simp] theorem encoded_nil : encoded [] = [] := rfl

/-- The encoding of the first character comes first. -/
theorem encoded_cons (c : Char) (text : List Char) :
    encoded (c :: text) = String.utf8EncodeChar c ++ encoded text := List.flatMap_cons

/-- Texts are encoded one after the other. -/
theorem encoded_append (first second : List Char) :
    encoded (first ++ second) = encoded first ++ encoded second := List.flatMap_append

/-- The bytes of a string are those of its characters. -/
theorem toUTF8_eq_encoded (s : String) : s.toUTF8.data.toList = encoded s.toList := by
  have hbytes : s.toUTF8 = (encoded s.toList).toByteArray := by
    conv_lhs => rw [← String.ofList_toList (s := s)]
    rfl
  rw [hbytes, List.data_toByteArray]

/-- A string is read from its bytes and from no others. -/
theorem fromUTF8?_eq_some_iff {bytes : List UInt8} {text : String} :
    String.fromUTF8? ⟨bytes.toArray⟩ = some text ↔ encoded text.toList = bytes := by
  rw [← toUTF8_eq_encoded]
  unfold String.fromUTF8?
  constructor
  · intro h
    split at h
    · obtain rfl := Option.some.inj h
      rfl
    · cases h
  · rintro rfl
    rw [Array.toArray_toList]
    exact dif_pos text.isValidUTF8

/-- **A byte below 128** stands for its character only. -/
theorem mem_encodeChar_iff {b : UInt8} (hb : b.toNat < 128) {c : Char} :
    b ∈ String.utf8EncodeChar c ↔ c.toNat = b.toNat := by
  have hbyte : ∀ n : ℕ, b = UInt8.ofNat n ↔ b.toNat = n % 256 := by
    intro n
    rw [← UInt8.toNat_inj, UInt8.toNat_ofNat']
  unfold String.utf8EncodeChar Char.toNat
  dsimp only
  split_ifs <;> simp only [List.mem_cons, List.not_mem_nil, or_false, hbyte] <;> omega

variable {b : UInt8} {c : Char}

/-- The encoding of a character below 128 is one byte. -/
theorem encodeChar_of_lt (hb : b.toNat < 128) (hc : c.toNat = b.toNat) :
    String.utf8EncodeChar c = [b] := by
  have hval : c.val.toNat = b.toNat := hc
  unfold String.utf8EncodeChar
  dsimp only
  rw [if_pos (by omega), hval, UInt8.ofNat_toNat]

/-- Every character has an encoding of at least one byte. -/
theorem encodeChar_ne_nil (c : Char) : String.utf8EncodeChar c ≠ [] := by
  unfold String.utf8EncodeChar
  dsimp only
  split_ifs <;> simp

/-- Elements that are no separators extend the first piece. -/
theorem splitOn_append_of_notMem {α : Type*} [DecidableEq α] {separator : α} {front : List α}
    (h : separator ∉ front) (rest : List α) :
    (front ++ rest).splitOn separator = (rest.splitOn separator).modifyHead (front ++ ·) := by
  induction front with
  | nil =>
    rw [List.nil_append]
    exact (congrFun List.modifyHead_id _).symm
  | cons a front ih =>
    rw [List.mem_cons, not_or] at h
    have hne : ¬ (a == separator) = true := fun heq => h.1 (beq_iff_eq.mp heq).symm
    rw [List.cons_append, List.splitOn_cons_eq_if_modifyHead, if_neg hne, ih h.2,
      List.modifyHead_modifyHead]
    rfl

/-- **Splitting the bytes** at a byte below 128 is splitting the text at its character. -/
theorem splitOn_encoded (hb : b.toNat < 128) (hc : c.toNat = b.toNat) (text : List Char) :
    (encoded text).splitOn b = (text.splitOn c).map encoded := by
  induction text with
  | nil => rfl
  | cons d text ih =>
    rw [encoded_cons, List.splitOn_cons_eq_if_modifyHead]
    by_cases hd : d = c
    · subst hd
      rw [encodeChar_of_lt hb hc, List.singleton_append, List.splitOn_cons_eq_if_modifyHead,
        if_pos (beq_self_eq_true b), if_pos (beq_self_eq_true d), ih]
      rfl
    · have hnot : b ∉ String.utf8EncodeChar d := by
        rw [mem_encodeChar_iff hb, ← hc]
        exact fun heq => hd (Char.toNat_inj.mp heq)
      rw [splitOn_append_of_notMem hnot, if_neg (fun heq => hd (beq_iff_eq.mp heq)), ih]
      cases text.splitOn c with
      | nil => rfl
      | cons piece pieces =>
        rw [List.map_cons, List.modifyHead_cons, List.modifyHead_cons, List.map_cons,
          encoded_cons]

/-- Characters below 128 in front of a text are their bytes in front of its bytes. -/
theorem encoded_prefix_iff {start text : List Char} (hstart : ∀ c ∈ start, c.toNat < 128) :
    encoded start <+: encoded text ↔ start <+: text := by
  constructor
  · induction start generalizing text with
    | nil => exact fun _ => List.nil_prefix
    | cons c start ih =>
      obtain ⟨hc, hrest⟩ := List.forall_mem_cons.mp hstart
      intro hprefix
      have hbyte : (UInt8.ofNat c.toNat).toNat = c.toNat := by
        rw [UInt8.toNat_ofNat']
        omega
      have hencode : String.utf8EncodeChar c = [UInt8.ofNat c.toNat] :=
        encodeChar_of_lt (by omega) hbyte.symm
      rw [encoded_cons, hencode, List.singleton_append] at hprefix
      cases text with
      | nil => exact absurd hprefix.length_le (by simp)
      | cons d text =>
        have hd : d = c := by
          rw [encoded_cons] at hprefix
          cases hbytes : String.utf8EncodeChar d with
          | nil => exact absurd hbytes (encodeChar_ne_nil d)
          | cons first bytes =>
            rw [hbytes, List.cons_append] at hprefix
            have hfirst := (List.cons_prefix_cons.mp hprefix).1
            have hmem : UInt8.ofNat c.toNat ∈ String.utf8EncodeChar d := by
              rw [hbytes, hfirst]
              exact List.mem_cons_self
            rw [mem_encodeChar_iff (by omega), hbyte] at hmem
            exact Char.toNat_inj.mp hmem
        subst hd
        rw [encoded_cons, hencode, List.singleton_append] at hprefix
        exact List.cons_prefix_cons.mpr ⟨rfl, ih hrest (List.cons_prefix_cons.mp hprefix).2⟩
  · rintro ⟨rest, rfl⟩
    rw [encoded_append]
    exact List.prefix_append ..

/-- A last byte below 128 is the last character. -/
theorem getLast?_of_encoded (hb : b.toNat < 128) (hc : c.toNat = b.toNat) {text : List Char}
    (h : (encoded text).getLast? = some b) : text.getLast? = some c := by
  rcases List.eq_nil_or_concat text with rfl | ⟨front, d, rfl⟩
  · cases h
  · have hlast : (String.utf8EncodeChar d).getLast? = some b := by
      rw [← h, List.concat_eq_append, encoded_append, encoded_cons, encoded_nil, List.append_nil,
        List.getLast?_append_of_ne_nil _ (encodeChar_ne_nil d)]
    have hmem := (mem_encodeChar_iff hb).mp (List.mem_of_getLast? hlast)
    have hd : d = c := Char.toNat_inj.mp (hmem.trans hc.symm)
    rw [hd, List.concat_eq_append, List.getLast?_concat]

end Utf8
