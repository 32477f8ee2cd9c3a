import KingCheck.Text.Utf8

/-!
# Reading back what was written

Octets that encode a character read as that character and leave the reader between
characters (`decode_utf8EncodeChar_append`), so that an encoded text is read back whatever
comes after it.  The reader's bounds on the octet after a lead exclude second encodings
and surrogates only, which is why no character is lost to them.  The other way round, octets that
read without a replacement are the encoding of what they read as (`encode_decode`): whatever else
there is between them shows.  And whatever is before an octet of the first 128 is read as if it
ended there (`decode_append_of_lt`).
-/
namespace KingCheck.Text

namespace Utf8State

variable {low high value n : Nat} {b : UInt8} {bs : Octets}

/-- The last octet of a character completes it. -/
theorem decode_inside_zero (hb : low ≤ b.toNat ∧ b.toNat ≤ high) :
    (inside 0 low high value).decode (b :: bs) =
      Char.ofNat (value * 0x40 + (b.toNat - 0x80)) :: ready.decode bs := by
  rw [decode, read, if_pos hb]
  rfl

/-- An octet in the middle of a character adds its bits. -/
theorem decode_inside_succ {owed : Nat} (hb : low ≤ b.toNat ∧ b.toNat ≤ high) :
    (inside (owed + 1) low high value).decode (b :: bs) =
      (inside owed 0x80 0xbf (value * 0x40 + (b.toNat - 0x80))).decode bs := by
  rw [decode, read, if_pos hb]
  rfl

/-- Between characters an octet is a lead. -/
theorem decode_ready_cons :
    ready.decode (b :: bs) = (lead b.toNat).1 ++ (lead b.toNat).2.decode bs := by
  rw [decode, read]

theorem lead_of_two (h : 0xc2 ≤ n ∧ n < 0xe0) : lead n = ([], inside 0 0x80 0xbf (n - 0xc0)) := by
  rw [lead, if_neg (by omega), if_neg (by omega), if_pos h.2]

/-- The lead of three octets: what may follow depends on it. -/
theorem lead_of_three (h : 0xe0 ≤ n ∧ n < 0xf0) : lead n = ([], inside 1
    (if n = 0xe0 then 0xa0 else 0x80) (if n = 0xed then 0x9f else 0xbf) (n - 0xe0)) := by
  rw [lead, if_neg (by omega), if_neg (by omega), if_neg (by omega)]
  by_cases h0 : n = 0xe0
  · subst h0
    rfl
  · by_cases hd : n = 0xed
    · subst hd
      rfl
    · rw [if_neg h0, if_neg hd, if_pos h.2, if_neg h0, if_neg hd]

/-- The lead of four octets: what may follow depends on it. -/
theorem lead_of_four (h : 0xf0 ≤ n ∧ n ≤ 0xf4) : lead n = ([], inside 2
    (if n = 0xf0 then 0x90 else 0x80) (if n = 0xf4 then 0x8f else 0xbf) (n - 0xf0)) := by
  rw [lead, if_neg (by omega), if_neg (by omega), if_neg (by omega), if_neg (by omega),
    if_neg (by omega), if_neg (by omega)]
  by_cases h0 : n = 0xf0
  · subst h0
    rfl
  · by_cases h4 : n = 0xf4
    · subst h4
      rfl
    · rw [if_neg h0, if_pos (by omega), if_neg h0, if_neg h4]

/-- No character begins with an octet that goes on with one, nor with the last octets. -/
theorem lead_of_none (h : (0x80 ≤ n ∧ n < 0xc2) ∨ 0xf4 < n) : lead n = ([replacement], ready) := by
  rw [lead, if_neg (by omega)]
  by_cases hlow : n < 0xc2
  · rw [if_pos hlow]
  · rw [if_neg hlow, if_neg (by omega), if_neg (by omega), if_neg (by omega), if_neg (by omega),
      if_neg (by omega), if_neg (by omega), if_neg (by omega)]

end Utf8State

open Utf8State

/-- A character's number is no surrogate. -/
theorem toNat_valid (c : Char) : c.toNat < 0xd800 ∨ (0xdfff < c.toNat ∧ c.toNat < 0x110000) :=
  c.valid

theorem toNat_ofNat_of_lt {n : Nat} (h : n < 0x100) : (UInt8.ofNat n).toNat = n := by
  simp only [UInt8.toNat_ofNat']
  omega

/-- **The octets of a character read as the character.** -/
theorem decode_utf8EncodeChar_append (c : Char) (bs : Octets) :
    decode (String.utf8EncodeChar c ++ bs) = c :: decode bs := by
  have hvalid := toNat_valid c
  have hc : Char.ofNat c.toNat = c := Char.ofNat_toNat c
  have hn : c.val.toNat = c.toNat := rfl
  simp only [decode, String.utf8EncodeChar, hn]
  generalize c.toNat = n at hvalid hc
  split
  next h1 =>
    have hb := toNat_ofNat_of_lt (n := n) (by omega)
    rw [List.singleton_append, decode_ready_cons, hb, lead, if_pos (by omega), hc]
    rfl
  next h1 =>
  split
  next h2 =>
    have hb0 := toNat_ofNat_of_lt (n := n / 64 % 32 + 192) (by omega)
    have hb1 := toNat_ofNat_of_lt (n := n % 64 + 128) (by omega)
    simp only [List.cons_append, List.nil_append]
    rw [decode_ready_cons, hb0, lead_of_two (by omega), List.nil_append,
      decode_inside_zero (by omega), hb1]
    have hbits : (n / 64 % 32 + 192 - 0xc0) * 0x40 + (n % 64 + 128 - 0x80) = n := by omega
    rw [hbits, hc]
  next h2 =>
  split
  next h3 =>
    have hb0 := toNat_ofNat_of_lt (n := n / 4096 % 16 + 224) (by omega)
    have hb1 := toNat_ofNat_of_lt (n := n / 64 % 64 + 128) (by omega)
    have hb2 := toNat_ofNat_of_lt (n := n % 64 + 128) (by omega)
    simp only [List.cons_append, List.nil_append]
    rw [decode_ready_cons, hb0, lead_of_three (by omega), List.nil_append,
      decode_inside_succ (by rw [hb1]; split <;> split <;> omega), hb1,
      decode_inside_zero (by omega), hb2]
    have hbits : ((n / 4096 % 16 + 224 - 0xe0) * 0x40 + (n / 64 % 64 + 128 - 0x80)) * 0x40 +
        (n % 64 + 128 - 0x80) = n := by omega
    rw [hbits, hc]
  next h3 =>
    have hb0 := toNat_ofNat_of_lt (n := n / 262144 % 8 + 240) (by omega)
    have hb1 := toNat_ofNat_of_lt (n := n / 4096 % 64 + 128) (by omega)
    have hb2 := toNat_ofNat_of_lt (n := n / 64 % 64 + 128) (by omega)
    have hb3 := toNat_ofNat_of_lt (n := n % 64 + 128) (by omega)
    simp only [List.cons_append, List.nil_append]
    rw [decode_ready_cons, hb0, lead_of_four (by omega), List.nil_append,
      decode_inside_succ (by rw [hb1]; split <;> split <;> omega), hb1,
      decode_inside_succ (by omega), hb2, decode_inside_zero (by omega), hb3]
    have hbits : (((n / 262144 % 8 + 240 - 0xf0) * 0x40 + (n / 4096 % 64 + 128 - 0x80)) * 0x40 +
        (n / 64 % 64 + 128 - 0x80)) * 0x40 + (n % 64 + 128 - 0x80) = n := by omega
    rw [hbits, hc]

theorem encode_cons (c : Char) (cs : List Char) :
    encode (c :: cs) = String.utf8EncodeChar c ++ encode cs := List.flatMap_cons

/-- **An encoded text is read back, whatever comes after it.** -/
theorem decode_encode_append (cs : List Char) (bs : Octets) :
    decode (encode cs ++ bs) = cs ++ decode bs := by
  induction cs with
  | nil => rfl
  | cons c cs ih =>
    rw [encode_cons, List.append_assoc, decode_utf8EncodeChar_append, ih, List.cons_append]

@[simp] theorem decode_encode (cs : List Char) : decode (encode cs) = cs := by
  simpa using decode_encode_append cs []

/-- A character beyond the first 128 is encoded by octets beyond the first 128. -/
theorem le_toNat_of_mem_utf8EncodeChar {c : Char} {b : UInt8} (hc : 0x80 ≤ c.toNat)
    (hb : b ∈ String.utf8EncodeChar c) : 0x80 ≤ b.toNat := by
  have hn : c.val.toNat = c.toNat := rfl
  simp only [String.utf8EncodeChar, hn] at hb
  rw [if_neg (by omega)] at hb
  split at hb
  · simp only [List.mem_cons, List.not_mem_nil, or_false] at hb
    rcases hb with rfl | rfl <;> rw [toNat_ofNat_of_lt (by omega)] <;> omega
  split at hb
  · simp only [List.mem_cons, List.not_mem_nil, or_false] at hb
    rcases hb with rfl | rfl | rfl <;> rw [toNat_ofNat_of_lt (by omega)] <;> omega
  · simp only [List.mem_cons, List.not_mem_nil, or_false] at hb
    rcases hb with rfl | rfl | rfl | rfl <;> rw [toNat_ofNat_of_lt (by omega)] <;> omega

theorem utf8EncodeChar_of_lt {c : Char} (hc : c.toNat < 0x80) :
    String.utf8EncodeChar c = [UInt8.ofNat c.toNat] := by
  have hn : c.val.toNat = c.toNat := rfl
  rw [String.utf8EncodeChar, hn]
  exact if_pos (by omega)

/-- An octet of the first 128 in an encoded text is one of its characters. -/
theorem mem_encode_iff_of_lt {cs : List Char} {b : UInt8} (hb : b.toNat < 0x80) :
    b ∈ encode cs ↔ Char.ofNat b.toNat ∈ cs := by
  have hnum : (Char.ofNat b.toNat).toNat = b.toNat := by
    rw [Char.ofNat, dif_pos (.inl (by omega))]
    rfl
  rw [encode, List.mem_flatMap]
  constructor
  · intro h
    obtain ⟨c, hmem, hc⟩ := h
    by_cases hlt : c.toNat < 0x80
    · rw [utf8EncodeChar_of_lt hlt, List.mem_singleton] at hc
      rw [hc, toNat_ofNat_of_lt (by omega), Char.ofNat_toNat]
      exact hmem
    · have := le_toNat_of_mem_utf8EncodeChar (by omega) hc
      omega
  · intro h
    refine ⟨_, h, ?_⟩
    rw [utf8EncodeChar_of_lt (by omega), hnum, List.mem_singleton, UInt8.ofNat_toNat]

/-- Characters of the first 128 are encoded by one octet each. -/
theorem encode_of_lt {cs : List Char} (h : ∀ c ∈ cs, c.toNat < 0x80) :
    encode cs = cs.map fun c => UInt8.ofNat c.toNat := by
  induction cs with
  | nil => rfl
  | cons c cs ih =>
    rw [encode_cons, utf8EncodeChar_of_lt (h c List.mem_cons_self),
      ih fun c' hc' => h c' (List.mem_cons_of_mem c hc'), List.map_cons, List.singleton_append]

/-- Octets of the first 128 read as one character each. -/
theorem decode_of_lt {bs : Octets} (h : ∀ b ∈ bs, b.toNat < 0x80) :
    decode bs = bs.map fun b => Char.ofNat b.toNat := by
  induction bs with
  | nil => rfl
  | cons b bs ih =>
    rw [decode_cons_of_lt (h b List.mem_cons_self),
      ih fun b' hb' => h b' (List.mem_cons_of_mem b hb'), List.map_cons]

/-! ### Octets of the first 128 between others -/

namespace Utf8State

/-- Inside a character no octet of the first 128 goes on with it. -/
def Guarded : Utf8State → Prop
  | ready => True
  | inside _ low _ _ => 0x80 ≤ low

theorem guarded_lead (n : Nat) : (lead n).2.Guarded := by
  unfold lead
  repeat' split
  all_goals simp [Guarded]

/-- After each octet the reader is guarded. -/
theorem guarded_read (state : Utf8State) (n : Nat) : (state.read n).2.Guarded := by
  cases state with
  | ready => exact guarded_lead n
  | inside owed low high value =>
    rw [read]
    split
    · cases owed with
      | zero => trivial
      | succ owed => exact Nat.le_refl 0x80
    · exact guarded_lead n

/-- An octet of the first 128 ends what is open, as the end of the octets does. -/
theorem decode_cons_of_guarded {state : Utf8State} (hstate : state.Guarded) {b : UInt8}
    (hb : b.toNat < 0x80) (bs : Octets) :
    state.decode (b :: bs) = state.flush ++ Char.ofNat b.toNat :: ready.decode bs := by
  have hlead : lead b.toNat = ([Char.ofNat b.toNat], ready) := by rw [lead, if_pos hb]
  cases state with
  | ready =>
    rw [decode_ready_cons, hlead]
    rfl
  | inside owed low high value =>
    have hlow : 0x80 ≤ low := hstate
    rw [decode, read, if_neg (by omega), hlead]
    rfl

/-- What comes before an octet of the first 128 is read as if nothing came after it. -/
theorem decode_append_of_guarded {state : Utf8State} (hstate : state.Guarded) {b : UInt8}
    (hb : b.toNat < 0x80) (before bs : Octets) :
    state.decode (before ++ b :: bs) =
      state.decode before ++ Char.ofNat b.toNat :: ready.decode bs := by
  induction before generalizing state with
  | nil => exact decode_cons_of_guarded hstate hb bs
  | cons a before ih =>
    rw [List.cons_append, decode, decode, ih (guarded_read state a.toNat), List.append_assoc]

end Utf8State

/-- **An octet of the first 128 is read the same whatever it follows,** and what it follows is read
as if it ended there. -/
theorem decode_append_of_lt {b : UInt8} (hb : b.toNat < 0x80) (before bs : Octets) :
    decode (before ++ b :: bs) = decode before ++ Char.ofNat b.toNat :: decode bs := by
  have hready : ready.Guarded := trivial
  exact decode_append_of_guarded hready hb before bs

/-! ### Octets that read without a replacement -/

/-- A number that is no surrogate is that of its character. -/
theorem toNat_ofNat_of_valid {n : Nat} (h : n < 0xd800 ∨ (0xdfff < n ∧ n < 0x110000)) :
    (Char.ofNat n).val.toNat = n := by
  rw [Char.ofNat, dif_pos h]
  rfl

theorem ofNat_eq_of_toNat_eq {b : UInt8} {n : Nat} (h : b.toNat = n) : UInt8.ofNat n = b := by
  rw [← h, UInt8.ofNat_toNat]

section Sequences

variable {a b c d : UInt8}

/-- An octet of the first 128 encodes a character. -/
theorem exists_utf8EncodeChar_eq_one (ha : a.toNat < 0x80) :
    ∃ ch, String.utf8EncodeChar ch = [a] := by
  refine ⟨Char.ofNat a.toNat, ?_⟩
  simp only [String.utf8EncodeChar]
  rw [toNat_ofNat_of_valid (by omega), if_pos (by omega), UInt8.ofNat_toNat]

/-- A lead of two octets and the octet after it encode a character. -/
theorem exists_utf8EncodeChar_eq_two (ha : 0xc2 ≤ a.toNat ∧ a.toNat < 0xe0)
    (hb : 0x80 ≤ b.toNat ∧ b.toNat ≤ 0xbf) : ∃ ch, String.utf8EncodeChar ch = [a, b] := by
  obtain ⟨n, hn⟩ : ∃ n, n = (a.toNat - 0xc0) * 0x40 + (b.toNat - 0x80) := ⟨_, rfl⟩
  refine ⟨Char.ofNat n, ?_⟩
  simp only [String.utf8EncodeChar]
  rw [toNat_ofNat_of_valid (by omega), if_neg (by omega), if_pos (by omega),
    ofNat_eq_of_toNat_eq (b := a) (by omega), ofNat_eq_of_toNat_eq (b := b) (by omega)]

/-- A lead of three octets and the octets after it encode a character. -/
theorem exists_utf8EncodeChar_eq_three (ha : 0xe0 ≤ a.toNat ∧ a.toNat < 0xf0)
    (hb : (if a.toNat = 0xe0 then 0xa0 else 0x80) ≤ b.toNat ∧
      b.toNat ≤ if a.toNat = 0xed then 0x9f else 0xbf)
    (hc : 0x80 ≤ c.toNat ∧ c.toNat ≤ 0xbf) : ∃ ch, String.utf8EncodeChar ch = [a, b, c] := by
  obtain ⟨n, hn⟩ : ∃ n, n = ((a.toNat - 0xe0) * 0x40 + (b.toNat - 0x80)) * 0x40 +
    (c.toNat - 0x80) := ⟨_, rfl⟩
  -- the bounds on the second octet keep out what two octets encode, and surrogates
  have hrange : 0x80 ≤ b.toNat ∧ b.toNat ≤ 0xbf ∧ 0x7ff < n ∧
      (n < 0xd800 ∨ (0xdfff < n ∧ n < 0x110000)) := by
    split at hb <;> split at hb <;> omega
  refine ⟨Char.ofNat n, ?_⟩
  simp only [String.utf8EncodeChar]
  rw [toNat_ofNat_of_valid hrange.2.2.2, if_neg (by omega), if_neg (by omega), if_pos (by omega),
    ofNat_eq_of_toNat_eq (b := a) (by omega), ofNat_eq_of_toNat_eq (b := b) (by omega),
    ofNat_eq_of_toNat_eq (b := c) (by omega)]

/-- A lead of four octets and the octets after it encode a character. -/
theorem exists_utf8EncodeChar_eq_four (ha : 0xf0 ≤ a.toNat ∧ a.toNat ≤ 0xf4)
    (hb : (if a.toNat = 0xf0 then 0x90 else 0x80) ≤ b.toNat ∧
      b.toNat ≤ if a.toNat = 0xf4 then 0x8f else 0xbf)
    (hc : 0x80 ≤ c.toNat ∧ c.toNat ≤ 0xbf) (hd : 0x80 ≤ d.toNat ∧ d.toNat ≤ 0xbf) :
    ∃ ch, String.utf8EncodeChar ch = [a, b, c, d] := by
  obtain ⟨n, hn⟩ : ∃ n, n = (((a.toNat - 0xf0) * 0x40 + (b.toNat - 0x80)) * 0x40 +
    (c.toNat - 0x80)) * 0x40 + (d.toNat - 0x80) := ⟨_, rfl⟩
  -- the bounds on the second octet keep out what three octets encode, and what is no character
  have hrange : 0x80 ≤ b.toNat ∧ b.toNat ≤ 0xbf ∧ 0xffff < n ∧ n < 0x110000 := by
    split at hb <;> split at hb <;> omega
  refine ⟨Char.ofNat n, ?_⟩
  simp only [String.utf8EncodeChar]
  rw [toNat_ofNat_of_valid (by omega), if_neg (by omega), if_neg (by omega), if_neg (by omega),
    ofNat_eq_of_toNat_eq (b := a) (by omega), ofNat_eq_of_toNat_eq (b := b) (by omega),
    ofNat_eq_of_toNat_eq (b := c) (by omega), ofNat_eq_of_toNat_eq (b := d) (by omega)]

end Sequences

/-- Where nothing is replaced, an open character goes on. -/
theorem Utf8State.exists_cons_of_inside {owed low high value : Nat} {bs : Octets}
    (h : replacement ∉ (inside owed low high value).decode bs) :
    ∃ b rest, bs = b :: rest ∧ low ≤ b.toNat ∧ b.toNat ≤ high := by
  cases bs with
  | nil => exact absurd List.mem_cons_self h
  | cons b rest =>
    by_cases hb : low ≤ b.toNat ∧ b.toNat ≤ high
    · exact ⟨b, rest, rfl, hb⟩
    · rw [decode, read, if_neg hb] at h
      exact absurd List.mem_cons_self h

/-- Where nothing is replaced, the octets begin with those of a character. -/
theorem exists_eq_utf8EncodeChar_append {a : UInt8} {bs : Octets}
    (h : replacement ∉ decode (a :: bs)) :
    ∃ ch rest, a :: bs = String.utf8EncodeChar ch ++ rest := by
  rw [decode, decode_ready_cons, List.mem_append, not_or] at h
  obtain ⟨hlead, h⟩ := h
  by_cases h1 : a.toNat < 0x80
  · obtain ⟨ch, hch⟩ := exists_utf8EncodeChar_eq_one h1
    exact ⟨ch, bs, by rw [hch]; rfl⟩
  by_cases hnone : a.toNat < 0xc2
  · simp [lead_of_none (.inl ⟨Nat.le_of_not_lt h1, hnone⟩)] at hlead
  by_cases h2 : a.toNat < 0xe0
  · rw [lead_of_two (by omega)] at h
    obtain ⟨b, bs, rfl, hb⟩ := exists_cons_of_inside h
    obtain ⟨ch, hch⟩ := exists_utf8EncodeChar_eq_two ⟨by omega, h2⟩ hb
    exact ⟨ch, bs, by rw [hch]; rfl⟩
  by_cases h3 : a.toNat < 0xf0
  · rw [lead_of_three (by omega)] at h
    obtain ⟨b, bs, rfl, hb⟩ := exists_cons_of_inside h
    rw [decode_inside_succ hb] at h
    obtain ⟨c, bs, rfl, hc⟩ := exists_cons_of_inside h
    obtain ⟨ch, hch⟩ := exists_utf8EncodeChar_eq_three ⟨by omega, h3⟩ hb hc
    exact ⟨ch, bs, by rw [hch]; rfl⟩
  by_cases h4 : a.toNat ≤ 0xf4
  · rw [lead_of_four (by omega)] at h
    obtain ⟨b, bs, rfl, hb⟩ := exists_cons_of_inside h
    rw [decode_inside_succ hb] at h
    obtain ⟨c, bs, rfl, hc⟩ := exists_cons_of_inside h
    rw [decode_inside_succ hc] at h
    obtain ⟨d, bs, rfl, hd⟩ := exists_cons_of_inside h
    obtain ⟨ch, hch⟩ := exists_utf8EncodeChar_eq_four ⟨by omega, h4⟩ hb hc hd
    exact ⟨ch, bs, by rw [hch]; rfl⟩
  · simp [lead_of_none (.inr (Nat.lt_of_not_le h4))] at hlead

/-- **Octets that read without a replacement are the encoding of what they read as.** -/
theorem encode_decode {bs : Octets} (h : replacement ∉ decode bs) : encode (decode bs) = bs := by
  induction hlength : bs.length using Nat.strongRecOn generalizing bs with
  | _ n ih =>
    cases bs with
    | nil => rfl
    | cons a bs =>
      obtain ⟨ch, rest, heq⟩ := exists_eq_utf8EncodeChar_append h
      rw [heq, decode_utf8EncodeChar_append] at h ⊢
      have hshort : rest.length < n := by
        have := congrArg List.length heq
        have := List.length_pos_iff.2 (String.utf8EncodeChar_ne_nil (c := ch))
        simp only [List.length_append] at *
        omega
      have hrest : replacement ∉ decode rest := fun hmem => h (List.mem_cons_of_mem ch hmem)
      rw [encode_cons, ih rest.length hshort hrest rfl]

end KingCheck.Text
