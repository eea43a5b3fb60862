import Mathlib.Data.List.DropRight

/-!
# Base64

The URL-safe alphabet without padding, and a decoder that skips the characters outside its alphabet and
stops at the padding. Many texts have one decoding; the encoder writes one of them
(`b64urlDecode_encode`).
-/

namespace Base64

/-- The letter of six bits. -/
def letter (bits : ℕ) : Char :=
  Char.ofNat (if bits < 26 then bits + 65 else if bits < 52 then bits + 71
    else if bits < 62 then bits - 4 else if bits = 62 then 45 else 95)

/-- The six bits of a letter, of either alphabet. -/
def bitsOf (c : Char) : Option ℕ :=
  let n := c.toNat
  if 65 ≤ n ∧ n ≤ 90 then some (n - 65)
  else if 97 ≤ n ∧ n ≤ 122 then some (n - 71)
  else if 48 ≤ n ∧ n ≤ 57 then some (n + 4)
  else if n = 43 ∨ n = 45 then some 62
  else if n = 47 ∨ n = 95 then some 63
  else none

/-- Three bytes in four letters; what is left at the end is padded. -/
def urlsafeB64encode : List UInt8 → List Char
  | [] => []
  | [a] => [letter (a.toNat / 4), letter (a.toNat % 4 * 16), '=', '=']
  | [a, b] =>
    [letter (a.toNat / 4), letter (a.toNat % 4 * 16 + b.toNat / 16), letter (b.toNat % 16 * 4), '=']
  | a :: b :: c :: rest =>
    letter (a.toNat / 4) :: letter (a.toNat % 4 * 16 + b.toNat / 16) ::
      letter (b.toNat % 16 * 4 + c.toNat / 64) :: letter (c.toNat % 64) :: urlsafeB64encode rest

/-- `b64url_encode`: the padding is stripped. -/
def b64urlEncode (data : List UInt8) : String :=
  String.ofList ((urlsafeB64encode data).rdropWhile (· = '='))

/-- `binascii.a2b_base64`, which is not strict: `quadPos` letters of the group have been read, the bits
that no byte has yet are in `leftchar`, and `pads` signs of padding follow. -/
def a2bBase64 (quadPos leftchar pads : ℕ) : List Char → Option (List UInt8)
  | [] => if quadPos = 0 then some [] else none
  | c :: rest =>
    if c = '=' then
      if quadPos < 2 then a2bBase64 quadPos leftchar pads rest
      else if 4 ≤ quadPos + (pads + 1) then some []
      else a2bBase64 quadPos leftchar (pads + 1) rest
    else
      match bitsOf c with
      | none => a2bBase64 quadPos leftchar pads rest
      | some bits =>
        if quadPos = 0 then a2bBase64 1 bits 0 rest
        else if quadPos = 1 then
          (a2bBase64 2 (bits % 16) 0 rest).map (.cons (.ofNat (leftchar * 4 + bits / 16)))
        else if quadPos = 2 then
          (a2bBase64 3 (bits % 4) 0 rest).map (.cons (.ofNat (leftchar * 16 + bits / 4)))
        else (a2bBase64 0 0 0 rest).map (.cons (.ofNat (leftchar * 64 + bits)))

/-- `b64url_decode`. -/
def b64urlDecode (value : String) : Option (List UInt8) :=
  let chars := value.toList
  if chars.all fun c => c.toNat < 128 then
    a2bBase64 0 0 0 (chars ++ List.replicate ((4 - chars.length % 4) % 4) '=')
  else none

/-! ## Letters -/

theorem bitsOf_letter {bits : ℕ} (h : bits < 64) : bitsOf (letter bits) = some bits :=
  (by decide : ∀ bits < 64, bitsOf (letter bits) = some bits) bits h

theorem letter_ne_pad {bits : ℕ} (h : bits < 64) : letter bits ≠ '=' :=
  (by decide : ∀ bits < 64, letter bits ≠ '=') bits h

theorem letter_ascii {bits : ℕ} (h : bits < 64) : (letter bits).toNat < 128 :=
  (by decide : ∀ bits < 64, (letter bits).toNat < 128) bits h

/-- A letter of a group, by its place. -/
theorem a2bBase64_letter {bits : ℕ} (h : bits < 64) (quadPos leftchar pads : ℕ) (rest : List Char) :
    a2bBase64 quadPos leftchar pads (letter bits :: rest) =
      if quadPos = 0 then a2bBase64 1 bits 0 rest
      else if quadPos = 1 then
        (a2bBase64 2 (bits % 16) 0 rest).map (.cons (.ofNat (leftchar * 4 + bits / 16)))
      else if quadPos = 2 then
        (a2bBase64 3 (bits % 4) 0 rest).map (.cons (.ofNat (leftchar * 16 + bits / 4)))
      else (a2bBase64 0 0 0 rest).map (.cons (.ofNat (leftchar * 64 + bits))) := by
  rw [a2bBase64, if_neg (letter_ne_pad h), bitsOf_letter h]

/-! ## Decoding what is encoded -/

theorem ofNat_of_toNat_eq {n : ℕ} {a : UInt8} (h : n = a.toNat) : UInt8.ofNat n = a := by
  rw [h, UInt8.ofNat_toNat]

theorem a2bBase64_encode (data : List UInt8) : a2bBase64 0 0 0 (urlsafeB64encode data) = some data := by
  -- groups of three bytes, then one or two bytes with their padding
  fun_induction urlsafeB64encode data with
  | case1 => rfl
  | case2 a =>
    have ha := a.toNat_lt
    rw [a2bBase64_letter (by omega), if_pos rfl, a2bBase64_letter (by omega), if_neg (by decide),
      if_pos rfl, ofNat_of_toNat_eq (a := a) (by omega)]
    rfl
  | case3 a b =>
    have ha := a.toNat_lt
    have hb := b.toNat_lt
    rw [a2bBase64_letter (by omega), if_pos rfl, a2bBase64_letter (by omega), if_neg (by decide),
      if_pos rfl, a2bBase64_letter (by omega), if_neg (by decide), if_neg (by decide), if_pos rfl,
      ofNat_of_toNat_eq (a := a) (by omega), ofNat_of_toNat_eq (a := b) (by omega)]
    rfl
  | case4 a b c rest ih =>
    have ha := a.toNat_lt
    have hb := b.toNat_lt
    have hc := c.toNat_lt
    rw [a2bBase64_letter (by omega), if_pos rfl, a2bBase64_letter (by omega), if_neg (by decide),
      if_pos rfl, a2bBase64_letter (by omega), if_neg (by decide), if_neg (by decide), if_pos rfl,
      a2bBase64_letter (by omega), if_neg (by decide), if_neg (by decide), if_neg (by decide), ih,
      ofNat_of_toNat_eq (a := a) (by omega), ofNat_of_toNat_eq (a := b) (by omega),
      ofNat_of_toNat_eq (a := c) (by omega)]
    rfl

/-- What is written is letters, and a padding to a length that is a multiple of four. -/
theorem exists_letters (data : List UInt8) : ∃ letters : List Char,
    urlsafeB64encode data = letters ++ List.replicate ((4 - letters.length % 4) % 4) '=' ∧
      ∀ c ∈ letters, ∃ bits < 64, c = letter bits := by
  fun_induction urlsafeB64encode data with
  | case1 => exact ⟨[], rfl, fun c hc => absurd hc List.not_mem_nil⟩
  -- one or two bytes are left: two or three letters, and the padding
  | case2 a =>
    have ha := a.toNat_lt
    refine ⟨[_, _], rfl, ?_⟩
    simp only [List.mem_cons, List.not_mem_nil, or_false]
    rintro c (rfl | rfl)
    · exact ⟨_, by omega, rfl⟩
    · exact ⟨_, by omega, rfl⟩
  | case3 a b =>
    have ha := a.toNat_lt
    have hb := b.toNat_lt
    refine ⟨[_, _, _], rfl, ?_⟩
    simp only [List.mem_cons, List.not_mem_nil, or_false]
    rintro c (rfl | rfl | rfl)
    · exact ⟨_, by omega, rfl⟩
    · exact ⟨_, by omega, rfl⟩
    · exact ⟨_, by omega, rfl⟩
  | case4 a b c rest ih =>
    obtain ⟨letters, heq, hletters⟩ := ih
    have ha := a.toNat_lt
    have hb := b.toNat_lt
    have hc := c.toNat_lt
    refine ⟨letter (a.toNat / 4) :: letter (a.toNat % 4 * 16 + b.toNat / 16) ::
      letter (b.toNat % 16 * 4 + c.toNat / 64) :: letter (c.toNat % 64) :: letters, ?_, ?_⟩
    · rw [heq]
      have hlength : (letters.length + 1 + 1 + 1 + 1) % 4 = letters.length % 4 := by omega
      simp only [List.length_cons, hlength, List.cons_append]
    · simp only [List.mem_cons]
      rintro d (rfl | rfl | rfl | rfl | hd)
      · exact ⟨_, by omega, rfl⟩
      · exact ⟨_, by omega, rfl⟩
      · exact ⟨_, by omega, rfl⟩
      · exact ⟨_, by omega, rfl⟩
      · exact hletters d hd

theorem rdropWhile_append_replicate {letters : List Char} (h : ∀ c ∈ letters, c ≠ '=') (n : ℕ) :
    (letters ++ List.replicate n '=').rdropWhile (· = '=') = letters := by
  induction n with
  | zero =>
    rw [List.replicate_zero, List.append_nil, List.rdropWhile_eq_self_iff]
    intro hne
    exact fun hpad => h _ (List.getLast_mem hne) (of_decide_eq_true hpad)
  | succ n ih =>
    rw [List.replicate_succ', ← List.append_assoc, List.rdropWhile_concat_pos _ _ _ (by decide)]
    exact ih

/-- The decoder reads what the encoder writes. -/
theorem b64urlDecode_encode (data : List UInt8) : b64urlDecode (b64urlEncode data) = some data := by
  obtain ⟨letters, heq, hletters⟩ := exists_letters data
  have hstripped : (urlsafeB64encode data).rdropWhile (· = '=') = letters := by
    rw [heq]
    refine rdropWhile_append_replicate (fun c hc => ?_) _
    obtain ⟨bits, hbits, rfl⟩ := hletters c hc
    exact letter_ne_pad hbits
  have hascii : letters.all (fun c => c.toNat < 128) = true := by
    refine List.all_eq_true.mpr fun c hc => ?_
    obtain ⟨bits, hbits, rfl⟩ := hletters c hc
    exact decide_eq_true (letter_ascii hbits)
  unfold b64urlDecode b64urlEncode
  rw [hstripped, String.toList_ofList]
  dsimp only
  rw [if_pos hascii, ← heq]
  exact a2bBase64_encode data

end Base64
