import Mathlib.Data.List.Basic
import Relay.Text.Utf8

/-!
# What is read of bytes

A file may hold bytes that are no text.  The reader takes a character where the
encoding of one stands, and leaves out a byte at which no encoding starts.
`Reads` says so without the ranges of bytes that the reader looks at, and
`reads_iff` that the reader does just that.

The key local fact is `front?_append`.  In the encoding of a character every
byte but the first one continues it, so a byte that continues nothing ends
whatever stands before it, well-formed or not, and the bytes before and after
it are read apart (`decodeLossy_append`).  A line feed is such a byte, and
nothing else is read as one.  Hence reading a file and cutting it into lines
can be done in either order (`splitOn_decodeLossy`).
-/

namespace Relay.Text

variable {a b d e : UInt8} {bs xs ys rest : List UInt8} {cs : List Char}
  {c : Char} {k : Nat}

/-- A byte continues a character if its two first bits are one and zero. -/
theorem isContinuation_iff :
    isContinuation b = true ↔ 128 ≤ b.toNat ∧ b.toNat < 192 := by
  simp [isContinuation, UInt8.le_iff_toNat_le, UInt8.lt_iff_toNat_lt]

/-- A number below 256 is kept by a byte. -/
theorem toNat_ofNat_of_eq {n m : Nat} (h : n = m) (hm : m < 256) :
    (UInt8.ofNat n).toNat = m := by
  rw [UInt8.toNat_ofNat', h]
  exact Nat.mod_eq_of_lt hm

/-- Six bits with the mark of a continuation continue a character. -/
theorem isContinuation_ofNat (n : Nat) :
    isContinuation (UInt8.ofNat (n % 64 + 128)) = true := by
  have hnat := toNat_ofNat_of_eq (n := n % 64 + 128) rfl (by omega)
  rw [isContinuation_iff, hnat]
  omega

/-- Six bits with the mark of a continuation carry these bits. -/
theorem payload_ofNat (n : Nat) :
    payload (UInt8.ofNat (n % 64 + 128)) = n % 64 := by
  have hnat := toNat_ofNat_of_eq (n := n % 64 + 128) rfl (by omega)
  unfold payload
  omega

/-- A byte below 128 is a character of its own. -/
theorem front?_one (ha : a.toNat < 128) :
    front? (a :: rest) = some (Char.ofNat a.toNat, 0) := by
  simp [front?, UInt8.lt_iff_toNat_lt, ha]

/-- A lead byte for two and one continuation spell what the two carry. -/
theorem front?_two (ha : 192 ≤ a.toNat ∧ a.toNat < 224)
    (hb : isContinuation b = true) :
    front? (a :: b :: rest)
      = (spelled? 128 ((a.toNat - 192) * 64 + payload b)).map (·, 1) := by
  have h₁ : ¬ a.toNat < 128 := by omega
  have h₂ : ¬ a.toNat < 192 := by omega
  simp [front?, UInt8.lt_iff_toNat_lt, h₁, h₂, ha, hb]

/-- A lead byte for three and two continuations spell what the three carry. -/
theorem front?_three (ha : 224 ≤ a.toNat ∧ a.toNat < 240)
    (hb : isContinuation b = true) (hd : isContinuation d = true) :
    front? (a :: b :: d :: rest)
      = (spelled? 2048 (((a.toNat - 224) * 64 + payload b) * 64 +
        payload d)).map (·, 2) := by
  have h₁ : ¬ a.toNat < 128 := by omega
  have h₂ : ¬ a.toNat < 192 := by omega
  have h₃ : ¬ a.toNat < 224 := by omega
  simp [front?, UInt8.lt_iff_toNat_lt, h₁, h₂, h₃, ha, hb, hd]

/-- A lead byte for four and three continuations spell what the four carry. -/
theorem front?_four (ha : 240 ≤ a.toNat ∧ a.toNat < 248)
    (hb : isContinuation b = true) (hd : isContinuation d = true)
    (he : isContinuation e = true) :
    front? (a :: b :: d :: e :: rest) = (spelled? 65536
      ((((a.toNat - 240) * 64 + payload b) * 64 + payload d) * 64 +
        payload e)).map (·, 3) := by
  have h₁ : ¬ a.toNat < 128 := by omega
  have h₂ : ¬ a.toNat < 192 := by omega
  have h₃ : ¬ a.toNat < 224 := by omega
  have h₄ : ¬ a.toNat < 240 := by omega
  simp [front?, UInt8.lt_iff_toNat_lt, h₁, h₂, h₃, h₄, ha, hb, hd, he]

/-- A character is read where its encoding stands. -/
theorem front?_utf8EncodeChar (c : Char) (rest : List UInt8) :
    front? (String.utf8EncodeChar c ++ rest)
      = some (c, (String.utf8EncodeChar c).length - 1) := by
  have hvalid : c.toNat.isValidChar := c.valid
  have hmax : c.toNat < 0x110000 := by
    rcases hvalid with h | h <;> omega
  have hspelled : ∀ {least v k : Nat}, least ≤ c.toNat → v = c.toNat →
      (spelled? least v).map (·, k) = some (c, k) := by
    intro least v k hleast hv
    subst hv
    simp [spelled?, hleast, hvalid]
  have hval : c.val.toNat = c.toNat := rfl
  unfold String.utf8EncodeChar
  rw [hval]
  dsimp only
  split
  · have hlead := toNat_ofNat_of_eq (n := c.toNat) rfl (by omega)
    rw [List.cons_append, front?_one (by omega), hlead, Char.ofNat_toNat]
    rfl
  · split
    · have hlead : (UInt8.ofNat (c.toNat / 64 % 32 + 192)).toNat =
          c.toNat / 64 + 192 :=
        toNat_ofNat_of_eq (by omega) (by omega)
      rw [List.cons_append, List.cons_append,
        front?_two (by omega) (isContinuation_ofNat _), payload_ofNat, hlead,
        hspelled (by omega) (by omega)]
      rfl
    · split
      · have hlead : (UInt8.ofNat (c.toNat / 4096 % 16 + 224)).toNat =
            c.toNat / 4096 + 224 :=
          toNat_ofNat_of_eq (by omega) (by omega)
        rw [List.cons_append, List.cons_append, List.cons_append,
          front?_three (by omega) (isContinuation_ofNat _)
          (isContinuation_ofNat _), payload_ofNat, payload_ofNat, hlead,
          hspelled (by omega) (by omega)]
        rfl
      · have hlead : (UInt8.ofNat (c.toNat / 262144 % 8 + 240)).toNat =
            c.toNat / 262144 + 240 :=
          toNat_ofNat_of_eq (by omega) (by omega)
        rw [List.cons_append, List.cons_append, List.cons_append,
          List.cons_append, front?_four (by omega) (isContinuation_ofNat _)
            (isContinuation_ofNat _)
            (isContinuation_ofNat _),
          payload_ofNat, payload_ofNat, payload_ofNat, hlead,
          hspelled (by omega) (by omega)]
        rfl

/-- The character of a valid number has that number. -/
theorem toNat_ofNat_of_isValidChar {v : Nat} (h : v.isValidChar) :
    (Char.ofNat v).val.toNat = v := by
  have hchar : Char.ofNat v = Char.ofNatAux v h := dif_pos h
  rw [hchar]
  rfl

/-- A spelled character has the number that was carried, which needs as many
bytes. -/
theorem toNat_of_spelled? {least v : Nat} (h : spelled? least v = some c) :
    c.val.toNat = v ∧ least ≤ v := by
  unfold spelled? at h
  split at h
  · rename_i hv
    cases h
    exact ⟨toNat_ofNat_of_isValidChar hv.2, hv.1⟩
  · cases h

/-- A byte is that of its number. -/
theorem ofNat_eq_of_toNat {n : Nat} (h : n = a.toNat) : UInt8.ofNat n = a := by
  rw [h, UInt8.ofNat_toNat]

/-- A character of one byte is written as that byte. -/
theorem utf8EncodeChar_one (ha : a.toNat < 128) :
    String.utf8EncodeChar (Char.ofNat a.toNat) = [a] := by
  unfold String.utf8EncodeChar
  dsimp only
  rw [toNat_ofNat_of_isValidChar (.inl (by omega)), if_pos (by omega),
    UInt8.ofNat_toNat]

/-- What two bytes spell is written as the two. -/
theorem utf8EncodeChar_two (ha : 192 ≤ a.toNat ∧ a.toNat < 224)
    (hb : isContinuation b = true)
    (h : spelled? 128 ((a.toNat - 192) * 64 + payload b) = some c) :
    String.utf8EncodeChar c = [a, b] := by
  obtain ⟨hval, hleast⟩ := toNat_of_spelled? h
  have hb := isContinuation_iff.mp hb
  unfold payload at hval hleast
  unfold String.utf8EncodeChar
  dsimp only
  rw [if_neg (by omega), if_pos (by omega),
    ofNat_eq_of_toNat (a := a) (by omega),
    ofNat_eq_of_toNat (a := b) (by omega)]

/-- What three bytes spell is written as the three. -/
theorem utf8EncodeChar_three (ha : 224 ≤ a.toNat ∧ a.toNat < 240)
    (hb : isContinuation b = true) (hd : isContinuation d = true)
    (h : spelled? 2048 (((a.toNat - 224) * 64 + payload b) * 64 + payload d) =
      some c) :
    String.utf8EncodeChar c = [a, b, d] := by
  obtain ⟨hval, hleast⟩ := toNat_of_spelled? h
  have hb := isContinuation_iff.mp hb
  have hd := isContinuation_iff.mp hd
  unfold payload at hval hleast
  unfold String.utf8EncodeChar
  dsimp only
  rw [if_neg (by omega), if_neg (by omega), if_pos (by omega),
    ofNat_eq_of_toNat (a := a) (by omega),
    ofNat_eq_of_toNat (a := b) (by omega),
    ofNat_eq_of_toNat (a := d) (by omega)]

/-- What four bytes spell is written as the four. -/
theorem utf8EncodeChar_four (ha : 240 ≤ a.toNat ∧ a.toNat < 248)
    (hb : isContinuation b = true) (hd : isContinuation d = true)
    (he : isContinuation e = true) (h : spelled? 65536
      ((((a.toNat - 240) * 64 + payload b) * 64 + payload d) * 64 + payload e) =
        some c) :
    String.utf8EncodeChar c = [a, b, d, e] := by
  obtain ⟨hval, hleast⟩ := toNat_of_spelled? h
  have hb := isContinuation_iff.mp hb
  have hd := isContinuation_iff.mp hd
  have he := isContinuation_iff.mp he
  unfold payload at hval hleast
  unfold String.utf8EncodeChar
  dsimp only
  rw [if_neg (by omega), if_neg (by omega), if_neg (by omega),
    ofNat_eq_of_toNat (a := a) (by omega),
    ofNat_eq_of_toNat (a := b) (by omega),
    ofNat_eq_of_toNat (a := d) (by omega),
    ofNat_eq_of_toNat (a := e) (by omega)]

/-- A character that is spelled by the first bytes has them for its encoding. -/
theorem exists_rest_of_spelled? (xs : List UInt8) {least v more : Nat}
    (hbs : bs = xs ++ rest) (h : (spelled? least v).map (·, more) = some (c, k))
    (hencode : spelled? least v = some c → String.utf8EncodeChar c = xs)
    (hlength : xs.length = more + 1) :
    ∃ rest, bs = String.utf8EncodeChar c ++ rest ∧
      (String.utf8EncodeChar c).length = k + 1 := by
  obtain ⟨c', hc, heq⟩ := Option.map_eq_some_iff.mp h
  cases heq
  rw [hencode hc]
  exact ⟨rest, hbs, hlength⟩

/-- Where a character is read, its encoding stands. -/
theorem utf8EncodeChar_of_front? (h : front? bs = some (c, k)) :
    ∃ rest, bs = String.utf8EncodeChar c ++ rest ∧
      (String.utf8EncodeChar c).length = k + 1 := by
  unfold front? at h
  simp only [UInt8.lt_iff_toNat_lt, UInt8.reduceToNat, Bool.and_eq_true] at h
  split at h
  · cases h
  · rename_i a bs
    split at h
    · rename_i ha
      cases h
      rw [utf8EncodeChar_one ha]
      exact ⟨bs, rfl, rfl⟩
    · split at h
      · cases h
      · split at h
        · split at h
          · rename_i b rest
            split at h
            · rename_i hb
              exact exists_rest_of_spelled? [a, b] rfl h
                (utf8EncodeChar_two (by omega) hb) rfl
            · cases h
          · cases h
        · split at h
          · split at h
            · rename_i b d rest
              split at h
              · rename_i hb
                exact exists_rest_of_spelled? [a, b, d] rfl h
                  (utf8EncodeChar_three (by omega) hb.1 hb.2) rfl
              · cases h
            · cases h
          · split at h
            · split at h
              · rename_i b d e rest
                split at h
                · rename_i hb
                  exact exists_rest_of_spelled? [a, b, d, e] rfl h
                    (utf8EncodeChar_four (by omega) hb.1.1 hb.1.2 hb.2) rfl
                · cases h
              · cases h
            · cases h

/-- A character is read at the front of some bytes just when they begin with
the bytes that it is written as. -/
theorem front?_eq_some_iff : front? bs = some (c, k) ↔
    ∃ rest, bs = String.utf8EncodeChar c ++ rest ∧
      (String.utf8EncodeChar c).length = k + 1 := by
  constructor
  · exact utf8EncodeChar_of_front?
  · intro h
    obtain ⟨rest, rfl, hlength⟩ := h
    rw [front?_utf8EncodeChar, hlength]
    rfl

/-- The characters that bytes are read as.  A byte at which no character starts
is left out. -/
inductive Reads : List UInt8 → List Char → Prop
  | nil : Reads [] []
  | char (c : Char) {rest : List UInt8} {cs : List Char} (h : Reads rest cs) :
      Reads (String.utf8EncodeChar c ++ rest) (c :: cs)
  | stray {b : UInt8} {rest : List UInt8} {cs : List Char}
      (hnone : ∀ c : Char, ¬ String.utf8EncodeChar c <+: b :: rest)
      (h : Reads rest cs) :
      Reads (b :: rest) cs

/-- Skipping as many bytes as there are goes on with what follows. -/
theorem decodeAfter_length (xs ys : List UInt8) :
    decodeAfter xs.length (xs ++ ys) = decodeLossy ys := by
  induction xs with
  | nil => rfl
  | cons a xs ih => exact ih

/-- A character is read where it is written. -/
theorem decodeLossy_char (c : Char) (rest : List UInt8) :
    decodeLossy (String.utf8EncodeChar c ++ rest) = c :: decodeLossy rest := by
  have hfront := front?_utf8EncodeChar c rest
  obtain ⟨a, more, hmore⟩ :=
    List.exists_cons_of_ne_nil (String.utf8EncodeChar_ne_nil (c := c))
  rw [hmore, List.cons_append] at hfront
  rw [hmore, decodeLossy, List.cons_append, decodeAfter, hfront]
  exact congrArg _ (decodeAfter_length more rest)

/-- A byte at which no character begins is left out. -/
theorem decodeLossy_stray
    (h : ∀ c : Char, ¬ String.utf8EncodeChar c <+: b :: rest) :
    decodeLossy (b :: rest) = decodeLossy rest := by
  have hfront : front? (b :: rest) = none := by
    rw [Option.eq_none_iff_forall_not_mem]
    intro read hread
    obtain ⟨more, hmore, -⟩ := front?_eq_some_iff.mp hread
    exact h read.1 ⟨more, hmore.symm⟩
  rw [decodeLossy, decodeAfter, hfront]
  rfl

/-- Bytes are read as the characters that the decoder gives. -/
theorem reads_decodeLossy (bs : List UInt8) : Reads bs (decodeLossy bs) := by
  induction hlength : bs.length using Nat.strongRecOn generalizing bs with
  | ind length ih =>
      subst hlength
      cases bs with
      | nil => exact .nil
      | cons b rest =>
          by_cases hchar : ∃ c : Char, String.utf8EncodeChar c <+: b :: rest
          · obtain ⟨c, more, hmore⟩ := hchar
            have hpos :=
              List.length_pos_iff.mpr (String.utf8EncodeChar_ne_nil (c := c))
            have hshorter : more.length < (b :: rest).length := by
              rw [← hmore, List.length_append]
              omega
            rw [← hmore, decodeLossy_char]
            exact .char c (ih _ hshorter more rfl)
          · rw [not_exists] at hchar
            rw [decodeLossy_stray hchar]
            exact .stray hchar (ih _ (by simp) rest rfl)

/-- **Ill-formed bytes are left out, and nothing else.** -/
theorem reads_iff : Reads bs cs ↔ decodeLossy bs = cs := by
  constructor
  · intro h
    induction h with
    | nil => rfl
    | char c h ih => rw [decodeLossy_char, ih]
    | stray hnone h ih => rw [decodeLossy_stray hnone, ih]
  · intro h
    exact h ▸ reads_decodeLossy bs

/-- After the first byte of a character, every byte continues it. -/
theorem isContinuation_of_mem_tail (h : b ∈ (String.utf8EncodeChar c).tail) :
    isContinuation b = true := by
  unfold String.utf8EncodeChar at h
  dsimp only at h
  split at h
  · cases h
  · split at h
    · simp only [List.tail_cons, List.mem_singleton] at h
      exact h ▸ isContinuation_ofNat _
    · split at h
      · simp only [List.tail_cons, List.mem_cons, List.not_mem_nil, or_false]
          at h
        rcases h with rfl | rfl <;> exact isContinuation_ofNat _
      · simp only [List.tail_cons, List.mem_cons, List.not_mem_nil, or_false]
          at h
        rcases h with rfl | rfl | rfl <;> exact isContinuation_ofNat _

/-- **A byte that continues nothing ends what stands before it.** -/
theorem front?_append (hb : isContinuation b = false) (ys : List UInt8) :
    front? (a :: (xs ++ b :: ys)) = front? (a :: xs) := by
  apply Option.ext
  intro read
  obtain ⟨c, k⟩ := read
  rw [front?_eq_some_iff, front?_eq_some_iff]
  constructor
  · intro h
    obtain ⟨rest, hbytes, hlength⟩ := h
    rw [← List.cons_append] at hbytes
    rcases List.append_eq_append_iff.mp hbytes
      with ⟨more, hmore, hrest⟩ | ⟨more, hmore, -⟩
    · cases more with
      | nil =>
          exact ⟨[], by rw [hmore, List.append_nil, List.append_nil], hlength⟩
      | cons b' more =>
          -- The character would go on with the byte that continues nothing.
          obtain rfl : b = b' := (List.cons.inj hrest).1
          have htail : b ∈ (String.utf8EncodeChar c).tail := by simp [hmore]
          rw [isContinuation_of_mem_tail htail] at hb
          cases hb
    · exact ⟨more, hmore, hlength⟩
  · intro h
    obtain ⟨rest, hbytes, hlength⟩ := h
    refine ⟨rest ++ b :: ys, ?_, hlength⟩
    rw [← List.append_assoc, ← hbytes, List.cons_append]

/-- A byte that continues nothing parts what is decoded. -/
theorem decodeAfter_append (hb : isContinuation b = false) (ys : List UInt8)
    (h : k ≤ xs.length) :
    decodeAfter k (xs ++ b :: ys) = decodeAfter k xs ++ decodeLossy
      (b :: ys) := by
  induction xs generalizing k with
  | nil =>
      obtain rfl : k = 0 := by simpa using h
      rfl
  | cons a xs ih =>
      cases k with
      | succ k => exact ih (by simpa using h)
      | zero =>
          rw [List.cons_append, decodeAfter, decodeAfter, front?_append hb]
          cases hfront : front? (a :: xs) with
          | none => exact ih (Nat.zero_le _)
          | some read =>
              obtain ⟨c, k⟩ := read
              obtain ⟨rest, hbytes, hlength⟩ := front?_eq_some_iff.mp hfront
              have hk : k ≤ xs.length := by
                have hsum := congrArg List.length hbytes
                simp only [List.length_cons, List.length_append] at hsum
                omega
              simp only [ih hk, List.cons_append]

/-- The bytes before and after a byte that continues nothing are read apart. -/
theorem decodeLossy_append (hb : isContinuation b = false)
    (xs ys : List UInt8) :
    decodeLossy (xs ++ b :: ys) = decodeLossy xs ++ decodeLossy (b :: ys) :=
  decodeAfter_append hb ys (Nat.zero_le _)

/-- A line feed parts what is decoded and is read as itself. -/
theorem decodeLossy_append_lineFeed (xs ys : List UInt8) :
    decodeLossy (xs ++ 0x0A :: ys) = decodeLossy xs ++ '\n' :: decodeLossy ys :=
  decodeLossy_append (by decide) xs ys

/-- Nothing else is read as a line feed. -/
theorem lineFeed_mem_of_reads (h : Reads bs cs) (hmem : '\n' ∈ cs) :
    0x0A ∈ bs := by
  induction h with
  | nil => cases hmem
  | char c h ih =>
      rcases List.mem_cons.mp hmem with rfl | hmem
      · exact List.mem_append_left _ (by decide)
      · exact List.mem_append_right _ (ih hmem)
  | stray hnone h ih => exact List.mem_cons_of_mem _ (ih hmem)

/-- **Reading commutes with cutting into lines.** -/
theorem splitOn_decodeLossy (bs : List UInt8) :
    (decodeLossy bs).splitOn '\n' = (bs.splitOn 0x0A).map decodeLossy := by
  have hplain : ∀ {line : List UInt8}, 0x0A ∉ line → '\n' ∉ decodeLossy line :=
    fun hline hmem => hline (lineFeed_mem_of_reads (reads_decodeLossy _) hmem)
  induction hlength : bs.length using Nat.strongRecOn generalizing bs with
  | ind length ih =>
      subst hlength
      by_cases hmem : 0x0A ∈ bs
      · obtain ⟨line, rest, rfl, hline⟩ := List.eq_append_cons_of_mem hmem
        have hrest : rest.length < (line ++ 0x0A :: rest).length := by
          simp only [List.length_append, List.length_cons]
          omega
        rw [decodeLossy_append_lineFeed,
          List.splitOn_append_cons_self_of_not_mem (hplain hline),
          List.splitOn_append_cons_self_of_not_mem hline, ih _ hrest rest rfl,
          List.map_cons]
      · rw [List.splitOn_eq_singleton (hplain hmem),
          List.splitOn_eq_singleton hmem, List.map_singleton]

end Relay.Text
