/-
# Written text is read back

`encode` and `decode?` are inverse to each other, in both directions:

* `decode?_encode`: the bytes written for a text hold that text;
* `encode_of_decode?`: bytes that hold a text are the ones written for it, so a text has one form
  in a file and nothing else is taken for it.

Both rest on one character at a time.  The four lengths of a character are four lemmas on
`encodeChar`, and `leadByte_eq_some` says what a first byte can announce.
-/
import Mathlib.Tactic.SplitIfs
import PackageRefs.Text.Utf8

namespace PackageRefs.Text

/-! ## 1. Reading one character -/

theorem toNat_ofNat_lt {n : Nat} (h : n < 256) : (UInt8.ofNat n).toNat = n := by
  simp [Nat.mod_eq_of_lt h]

theorem readContinuation_cons {n value count : Nat} {low high b : UInt8} {r : Bytes}
    (hl : low ≤ b) (hh : b ≤ high) :
    readContinuation (n + 1) low high value count (b :: r) =
      readContinuation n 0x80 0xBF (value * 64 + (b.toNat - 0x80)) (count + 1) r := by
  simp [readContinuation, hl, hh]

theorem readContinuation_succ_eq_some {n value count v k : Nat} {low high : UInt8} {r : Bytes}
    (h : readContinuation (n + 1) low high value count r = (some v, k)) :
    ∃ b r', r = b :: r' ∧ low ≤ b ∧ b ≤ high ∧
      readContinuation n 0x80 0xBF (value * 64 + (b.toNat - 0x80)) (count + 1) r' = (some v, k) := by
  cases r with
  | nil => simp [readContinuation] at h
  | cons b r' =>
    simp only [readContinuation] at h
    split at h
    · rename_i hb
      simp only [Bool.and_eq_true, decide_eq_true_eq] at hb
      exact ⟨b, r', rfl, hb.1, hb.2, h⟩
    · simp at h

theorem readContinuation_zero_eq_some {value count v k : Nat} {low high : UInt8} {r : Bytes}
    (h : readContinuation 0 low high value count r = (some v, k)) : v = value ∧ k = count := by
  simp only [readContinuation, Prod.mk.injEq, Option.some.injEq] at h
  exact ⟨h.1.symm, h.2.symm⟩

/-- A byte that goes on a character, with six bits of its value. -/
def tailByte (n : Nat) : UInt8 := UInt8.ofNat (n % 64 + 128)

theorem toNat_tailByte (n : Nat) : (tailByte n).toNat = n % 64 + 128 :=
  toNat_ofNat_lt (by omega)

theorem leadByte_two : ∀ k < 30,
    leadByte (UInt8.ofNat (k + 194)) = some (1, 0x80, 0xBF, k + 2) := by decide

theorem leadByte_three : ∀ k < 16, leadByte (UInt8.ofNat (k + 224)) =
    some (2, if k = 0 then 0xA0 else 0x80, if k = 13 then 0x9F else 0xBF, k) := by decide

theorem leadByte_four : ∀ k < 5, leadByte (UInt8.ofNat (k + 240)) =
    some (3, if k = 0 then 0x90 else 0x80, if k = 4 then 0x8F else 0xBF, k) := by decide

/-- The value of a character is that of a scalar: below the surrogates or above them. -/
theorem scalar_toNat (c : Char) : c.toNat < 0xD800 ∨ 0xDFFF < c.toNat ∧ c.toNat < 0x110000 := by
  simpa [UInt32.isValidChar, Nat.isValidChar] using c.valid

theorem encodeChar_one {c : Char} (h : c.toNat < 0x80) : encodeChar c = [UInt8.ofNat c.toNat] := by
  have h1 : c.val.toNat ≤ 0x7f := Nat.le_of_lt_succ h
  simp only [encodeChar, String.utf8EncodeChar, if_pos h1]
  rfl

theorem encodeChar_two {c : Char} (hl : 0x80 ≤ c.toNat) (hh : c.toNat < 0x800) :
    encodeChar c = [UInt8.ofNat (c.toNat / 64 + 192), tailByte c.toNat] := by
  have h1 : ¬ c.val.toNat ≤ 0x7f := Nat.not_le_of_lt hl
  have h2 : c.val.toNat ≤ 0x7ff := Nat.le_of_lt_succ hh
  have h3 : c.toNat / 64 % 32 = c.toNat / 64 := Nat.mod_eq_of_lt (by omega)
  simp only [encodeChar, String.utf8EncodeChar, if_neg h1, if_pos h2]
  rw [show c.val.toNat = c.toNat from rfl, h3]
  rfl

theorem encodeChar_three {c : Char} (hl : 0x800 ≤ c.toNat) (hh : c.toNat < 0x10000) :
    encodeChar c =
      [UInt8.ofNat (c.toNat / 4096 + 224), tailByte (c.toNat / 64), tailByte c.toNat] := by
  have h1 : ¬ c.val.toNat ≤ 0x7f := Nat.not_le_of_lt (Nat.lt_of_lt_of_le (by decide) hl)
  have h2 : ¬ c.val.toNat ≤ 0x7ff := Nat.not_le_of_lt hl
  have h3 : c.val.toNat ≤ 0xffff := Nat.le_of_lt_succ hh
  have h4 : c.toNat / 4096 % 16 = c.toNat / 4096 := Nat.mod_eq_of_lt (by omega)
  simp only [encodeChar, String.utf8EncodeChar, if_neg h1, if_neg h2, if_pos h3]
  rw [show c.val.toNat = c.toNat from rfl, h4]
  rfl

theorem encodeChar_four {c : Char} (hl : 0x10000 ≤ c.toNat) :
    encodeChar c =
      [UInt8.ofNat (c.toNat / 262144 + 240), tailByte (c.toNat / 4096), tailByte (c.toNat / 64),
        tailByte c.toNat] := by
  have h1 : ¬ c.val.toNat ≤ 0x7f := Nat.not_le_of_lt (Nat.lt_of_lt_of_le (by decide) hl)
  have h2 : ¬ c.val.toNat ≤ 0x7ff := Nat.not_le_of_lt (Nat.lt_of_lt_of_le (by decide) hl)
  have h3 : ¬ c.val.toNat ≤ 0xffff := Nat.not_le_of_lt hl
  have h4 : c.toNat / 262144 % 8 = c.toNat / 262144 :=
    Nat.mod_eq_of_lt (by have := scalar_toNat c; omega)
  simp only [encodeChar, String.utf8EncodeChar, if_neg h1, if_neg h2, if_neg h3]
  rw [show c.val.toNat = c.toNat from rfl, h4]
  rfl

theorem not_lt_0x80 {n : Nat} (hl : 0x80 ≤ n) (hh : n < 256) : ¬ UInt8.ofNat n < 0x80 := by
  rw [UInt8.lt_iff_toNat_lt, toNat_ofNat_lt hh]
  exact Nat.not_lt_of_le hl

theorem tailByte_bounds {n : Nat} {low high : UInt8} (hl : low.toNat ≤ n % 64 + 128)
    (hh : n % 64 + 128 ≤ high.toNat) : low ≤ tailByte n ∧ tailByte n ≤ high := by
  rw [UInt8.le_iff_toNat_le, UInt8.le_iff_toNat_le, toNat_tailByte]
  exact ⟨hl, hh⟩

/-- A byte that goes on a character gives its six bits. -/
theorem readContinuation_tailByte {n value count m : Nat} {low high : UInt8} {r : Bytes}
    (hl : low.toNat ≤ m % 64 + 128) (hh : m % 64 + 128 ≤ high.toNat) :
    readContinuation (n + 1) low high value count (tailByte m :: r) =
      readContinuation n 0x80 0xBF (value * 64 + m % 64) (count + 1) r := by
  obtain ⟨h1, h2⟩ := tailByte_bounds hl hh
  rw [readContinuation_cons h1 h2, toNat_tailByte, Nat.add_sub_cancel]

/-- Later bytes may be any that go on a character. -/
theorem readContinuation_tailByte' {n value count m : Nat} {r : Bytes} :
    readContinuation (n + 1) 0x80 0xBF value count (tailByte m :: r) =
      readContinuation n 0x80 0xBF (value * 64 + m % 64) (count + 1) r := by
  have hl : (0x80 : UInt8).toNat = 128 := by decide
  have hh : (0xBF : UInt8).toNat = 191 := by decide
  exact readContinuation_tailByte (by omega) (by omega)

/-- **A written character is read back**, whatever follows it. -/
theorem readChar_encodeChar (c : Char) (r : Bytes) :
    ∃ b tail, encodeChar c = b :: tail ∧ readChar b (tail ++ r) = (some c, tail.length) := by
  have hc := scalar_toNat c
  have hback : ∀ n, n = c.toNat → Char.ofNat n = c := fun n h => h ▸ Char.ofNat_toNat c
  by_cases h1 : c.toNat < 0x80
  · refine ⟨_, _, encodeChar_one h1, ?_⟩
    have ht := toNat_ofNat_lt (n := c.toNat) (by omega)
    have hlt : UInt8.ofNat c.toNat < 0x80 := by rw [UInt8.lt_iff_toNat_lt, ht]; exact h1
    simp only [readChar, if_pos hlt, ht, hback _ rfl, List.length_nil]
  by_cases h2 : c.toNat < 0x800
  · refine ⟨_, _, encodeChar_two (by omega) h2, ?_⟩
    obtain ⟨k, hk⟩ : ∃ k, c.toNat / 64 + 192 = k + 194 := ⟨c.toNat / 64 - 2, by omega⟩
    have hne : ¬ UInt8.ofNat (k + 194) < 0x80 := not_lt_0x80 (by omega) (by omega)
    simp only [hk, readChar, if_neg hne, leadByte_two k (by omega), List.cons_append,
      readContinuation_tailByte', readContinuation]
    rw [hback _ (by omega)]
    rfl
  by_cases h3 : c.toNat < 0x10000
  · refine ⟨_, _, encodeChar_three (by omega) h3, ?_⟩
    have hne : ¬ UInt8.ofNat (c.toNat / 4096 + 224) < 0x80 := not_lt_0x80 (by omega) (by omega)
    simp only [readChar, if_neg hne, leadByte_three (c.toNat / 4096) (by omega), List.cons_append]
    rw [readContinuation_tailByte (by split <;> simp <;> omega) (by split <;> simp <;> omega),
      readContinuation_tailByte']
    simp only [readContinuation]
    rw [hback _ (by omega)]
    rfl
  · refine ⟨_, _, encodeChar_four (by omega), ?_⟩
    have hne : ¬ UInt8.ofNat (c.toNat / 262144 + 240) < 0x80 := not_lt_0x80 (by omega) (by omega)
    simp only [readChar, if_neg hne, leadByte_four (c.toNat / 262144) (by omega), List.cons_append]
    rw [readContinuation_tailByte (by split <;> simp <;> omega) (by split <;> simp <;> omega),
      readContinuation_tailByte', readContinuation_tailByte']
    simp only [readContinuation]
    rw [hback _ (by omega)]
    rfl

theorem toNat_ofNat_scalar {n : Nat} (h : n < 0xD800 ∨ 0xDFFF < n ∧ n < 0x110000) :
    (Char.ofNat n).toNat = n := by
  have hv : n.isValidChar := h
  rw [Char.ofNat, dif_pos hv]
  rfl

theorem eq_ofNat_of_toNat {b : UInt8} {n : Nat} (h : b.toNat = n) : b = UInt8.ofNat n := by
  rw [← h, UInt8.ofNat_toNat]

/-- What a first byte can say. -/
theorem leadByte_eq_some {b low high : UInt8} {n value : Nat}
    (h : leadByte b = some (n, low, high, value)) :
    (n = 1 ∧ low = 0x80 ∧ high = 0xBF ∧ 2 ≤ value ∧ value < 32 ∧ b = UInt8.ofNat (value + 192)) ∨
    (n = 2 ∧ value < 16 ∧ low = (if value = 0 then 0xA0 else 0x80) ∧
      high = (if value = 13 then 0x9F else 0xBF) ∧ b = UInt8.ofNat (value + 224)) ∨
    (n = 3 ∧ value < 5 ∧ low = (if value = 0 then 0x90 else 0x80) ∧
      high = (if value = 4 then 0x8F else 0xBF) ∧ b = UInt8.ofNat (value + 240)) := by
  simp only [leadByte, Bool.and_eq_true, decide_eq_true_eq, beq_iff_eq] at h
  split_ifs at h <;> simp only [Option.some.injEq, Prod.mk.injEq] at h <;>
    obtain ⟨rfl, rfl, rfl, rfl⟩ := h
  · exact .inl ⟨rfl, rfl, rfl, by omega, by omega, eq_ofNat_of_toNat (by omega)⟩
  · exact .inr (.inl ⟨rfl, by omega, rfl, rfl, eq_ofNat_of_toNat (by omega)⟩)
  · exact .inr (.inl ⟨rfl, by omega, rfl, rfl, eq_ofNat_of_toNat (by omega)⟩)
  · exact .inr (.inl ⟨rfl, by omega, by rw [if_neg (by omega)], by rw [if_neg (by omega)],
      eq_ofNat_of_toNat (by omega)⟩)
  · exact .inr (.inr ⟨rfl, by omega, rfl, rfl, eq_ofNat_of_toNat (by omega)⟩)
  · exact .inr (.inr ⟨rfl, by omega, rfl, rfl, eq_ofNat_of_toNat (by omega)⟩)
  · exact .inr (.inr ⟨rfl, by omega, by rw [if_neg (by omega)], by rw [if_neg (by omega)],
      eq_ofNat_of_toNat (by omega)⟩)

/-- A byte between the bounds that goes on a character is the one for its six bits. -/
theorem eq_tailByte {b : UInt8} {m : Nat} (hl : 128 ≤ b.toNat) (hm : m % 64 = b.toNat - 128) :
    tailByte m = b := by
  rw [tailByte, hm, Nat.sub_add_cancel hl, UInt8.ofNat_toNat]

/-- The least second byte is a tighter one after one first byte. -/
theorem low_le {value k : Nat} {x b : UInt8} (h : (if value = k then x else 0x80) ≤ b)
    (hx : 128 ≤ x.toNat) : 128 ≤ b.toNat ∧ (value = k → x.toNat ≤ b.toNat) := by
  rw [UInt8.le_iff_toNat_le] at h
  split_ifs at h with hk
  · exact ⟨Nat.le_trans hx h, fun _ => h⟩
  · exact ⟨h, fun h' => absurd h' hk⟩

/-- So is the greatest one. -/
theorem le_high {value k : Nat} {x b : UInt8} (h : b ≤ (if value = k then x else 0xBF))
    (hx : x.toNat ≤ 191) : b.toNat ≤ 191 ∧ (value = k → b.toNat ≤ x.toNat) := by
  rw [UInt8.le_iff_toNat_le] at h
  split_ifs at h with hk
  · exact ⟨Nat.le_trans h hx, fun _ => h⟩
  · exact ⟨h, fun h' => absurd h' hk⟩

/-- Bytes read after a first one lie between the bounds, and the value is put together from
them. -/
theorem readContinuation_one {value v k : Nat} {low high : UInt8} {r : Bytes} {count : Nat}
    (h : readContinuation 1 low high value count r = (some v, k)) :
    ∃ b r', r = b :: r' ∧ low.toNat ≤ b.toNat ∧ b.toNat ≤ high.toNat ∧
      v = value * 64 + (b.toNat - 128) ∧ k = count + 1 := by
  obtain ⟨b, r', rfl, hl, hh, h⟩ := readContinuation_succ_eq_some h
  obtain ⟨hv, hk⟩ := readContinuation_zero_eq_some h
  exact ⟨b, r', rfl, UInt8.le_iff_toNat_le.mp hl, UInt8.le_iff_toNat_le.mp hh, hv, hk⟩

/-- **Only written characters are read.**  What is read as a character is what is written for it. -/
theorem encodeChar_of_readChar {b : UInt8} {r : Bytes} {c : Char} {n : Nat}
    (h : readChar b r = (some c, n)) : n ≤ r.length ∧ encodeChar c = b :: r.take n := by
  simp only [readChar] at h
  split at h
  · rename_i hb
    have hb : b.toNat < 128 := UInt8.lt_iff_toNat_lt.mp hb
    simp only [Prod.mk.injEq, Option.some.injEq] at h
    obtain ⟨rfl, rfl⟩ := h
    have hc := toNat_ofNat_scalar (n := b.toNat) (by omega)
    exact ⟨Nat.zero_le _, by rw [encodeChar_one (by omega), hc, UInt8.ofNat_toNat, List.take_zero]⟩
  · split at h
    · simp at h
    · rename_i k low high value hlead
      split at h
      · rename_i v count hread
        simp only [Prod.mk.injEq, Option.some.injEq] at h
        obtain ⟨rfl, rfl⟩ := h
        rcases leadByte_eq_some hlead with ⟨rfl, rfl, rfl, h2, h32, rfl⟩ |
          ⟨rfl, h16, rfl, rfl, rfl⟩ | ⟨rfl, h5, rfl, rfl, rfl⟩
        · obtain ⟨b₁, r, rfl, hl, hh, hv, rfl⟩ := readContinuation_one hread
          have hl : 128 ≤ b₁.toNat := hl
          have hh : b₁.toNat ≤ 191 := hh
          have hc := toNat_ofNat_scalar (n := v) (by omega)
          refine ⟨by simp, ?_⟩
          rw [encodeChar_two (by omega) (by omega), hc, eq_tailByte (b := b₁) hl (by omega),
            show v / 64 = value by omega]
          rfl
        · obtain ⟨b₁, r, rfl, hl, hh, hread⟩ := readContinuation_succ_eq_some hread
          obtain ⟨b₂, r, rfl, hl₂, hh₂, hv, rfl⟩ := readContinuation_one hread
          have hl : 128 ≤ b₁.toNat ∧ (value = 0 → 160 ≤ b₁.toNat) := low_le hl (by decide)
          have hh : b₁.toNat ≤ 191 ∧ (value = 13 → b₁.toNat ≤ 159) := le_high hh (by decide)
          have hl₂ : 128 ≤ b₂.toNat := hl₂
          have hh₂ : b₂.toNat ≤ 191 := hh₂
          have hc := toNat_ofNat_scalar (n := v) (by omega)
          refine ⟨by simp, ?_⟩
          rw [encodeChar_three (by omega) (by omega), hc, eq_tailByte (b := b₁) hl.1 (by omega),
            eq_tailByte (b := b₂) hl₂ (by omega), show v / 4096 = value by omega]
          rfl
        · obtain ⟨b₁, r, rfl, hl, hh, hread⟩ := readContinuation_succ_eq_some hread
          obtain ⟨b₂, r, rfl, hl₂, hh₂, hread⟩ := readContinuation_succ_eq_some hread
          obtain ⟨b₃, r, rfl, hl₃, hh₃, hv, rfl⟩ := readContinuation_one hread
          have hl : 128 ≤ b₁.toNat ∧ (value = 0 → 144 ≤ b₁.toNat) := low_le hl (by decide)
          have hh : b₁.toNat ≤ 191 ∧ (value = 4 → b₁.toNat ≤ 143) := le_high hh (by decide)
          have hl₂ : 128 ≤ b₂.toNat := hl₂
          have hh₂ : b₂.toNat ≤ 191 := hh₂
          have hl₃ : 128 ≤ b₃.toNat := hl₃
          have hh₃ : b₃.toNat ≤ 191 := hh₃
          have hc := toNat_ofNat_scalar (n := v) (by omega)
          refine ⟨by simp, ?_⟩
          rw [encodeChar_four (by omega), hc, eq_tailByte (b := b₁) hl.1 (by omega),
            eq_tailByte (b := b₂) hl₂ (by omega), eq_tailByte (b := b₃) hl₃ (by omega),
            show v / 262144 = value by omega]
          rfl
      · simp at h

/-! ## 2. Whole texts -/

theorem decodeFrom_append (bytes r : Bytes) :
    decodeFrom bytes.length (bytes ++ r) = decodeFrom 0 r := by
  induction bytes with
  | nil => rfl
  | cons b bytes ih => exact ih

theorem decodeFrom_flatMap_encodeChar (cs : List Char) :
    decodeFrom 0 (cs.flatMap encodeChar) = cs.map some := by
  induction cs with
  | nil => rfl
  | cons c cs ih =>
    obtain ⟨b, tail, hc, hread⟩ := readChar_encodeChar c (cs.flatMap encodeChar)
    rw [List.flatMap_cons, hc, List.cons_append, decodeFrom, hread]
    simp only [decodeFrom_append, ih, List.map_cons]

theorem mapM_id_map_some {α : Type} (as : List α) : (as.map some).mapM id = some as := by
  induction as with
  | nil => rfl
  | cons a as ih => simp [List.mapM_cons, ih]

theorem eq_map_some_of_mapM_id {α : Type} {as : List (Option α)} {bs : List α}
    (h : as.mapM id = some bs) : as = bs.map some := by
  induction as generalizing bs with
  | nil => simp_all
  | cons a as ih =>
    cases a with
    | none => simp [List.mapM_cons] at h
    | some a =>
      simp only [List.mapM_cons, id_eq, Option.pure_def, Option.bind_eq_bind, Option.bind_some,
        Option.bind_eq_some_iff, Option.some.injEq] at h
      obtain ⟨cs, hcs, rfl⟩ := h
      rw [ih hcs, List.map_cons]

/-- **A written text is read back.** -/
@[simp] theorem decode?_encode (s : String) : decode? (encode s) = some s := by
  rw [decode?, encode, decodeFrom_flatMap_encodeChar, mapM_id_map_some]
  simp

theorem encode_of_decodeFrom {bytes : Bytes} {cs : List Char}
    (h : decodeFrom 0 bytes = cs.map some) : cs.flatMap encodeChar = bytes := by
  induction cs generalizing bytes with
  | nil =>
    cases bytes with
    | nil => rfl
    | cons b r => simp [decodeFrom] at h
  | cons c cs ih =>
    cases bytes with
    | nil => simp [decodeFrom] at h
    | cons b r =>
      rcases hread : readChar b r with ⟨d, n⟩
      simp only [decodeFrom, hread, List.map_cons, List.cons.injEq] at h
      obtain ⟨rfl, hrest⟩ := h
      obtain ⟨hn, hc⟩ := encodeChar_of_readChar hread
      have hskip : decodeFrom n r = decodeFrom 0 (r.drop n) := by
        have h := decodeFrom_append (r.take n) (r.drop n)
        rwa [List.take_append_drop, List.length_take_of_le hn] at h
      rw [List.flatMap_cons, hc, ih (hskip ▸ hrest), List.cons_append, List.take_append_drop]

/-- **Only written texts are read.**  Bytes that hold a text are those that are written for it. -/
theorem encode_of_decode? {bytes : Bytes} {s : String} (h : decode? bytes = some s) :
    encode s = bytes := by
  simp only [decode?, Option.map_eq_some_iff] at h
  obtain ⟨cs, hcs, rfl⟩ := h
  rw [encode, String.toList_ofList]
  exact encode_of_decodeFrom (eq_map_some_of_mapM_id hcs)

/-- A text is as long in a file as its bytes are counted. -/
@[simp] theorem length_encode (s : String) : (encode s).length = s.utf8ByteSize := by
  rw [← String.size_toByteArray, ← String.utf8Encode_toList, List.utf8Encode,
    List.size_toByteArray]
  rfl

end PackageRefs.Text
