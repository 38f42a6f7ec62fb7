import Reporting.Text.Utf8

/-!
# Proofs/Text/Bytes — texts are ordered by their bytes

Texts are compared character by character, and that is how their bytes compare (`bytes_lt_bytes`).  The
bytes of a character are the digits of its number to the base 64, the highest of them marked with how
many there are.  So of two characters with as many bytes the first digit to differ decides
(`Ascends.trail`), and of others the mark (`Ascends.ite`); and no character's bytes begin with those of
another, so it makes no difference what follows (`utf8EncodeChar_append_lt`).
-/

namespace Reporting.Text

/-! ## Characters -/

theorem ofNat_lt_ofNat {m n : Nat} (h : m < n) (hn : n < 256) : UInt8.ofNat m < UInt8.ofNat n := by
  rw [UInt8.lt_iff_toNat_lt, UInt8.toNat_ofNat', UInt8.toNat_ofNat',
    Nat.mod_eq_of_lt (Nat.lt_trans h hn), Nat.mod_eq_of_lt hn]
  exact h

/-- The first byte decides where it differs. -/
theorem cons_lt_cons {m n : Nat} (h : m < n) (hn : n < 256) (xs ys : List UInt8) :
    UInt8.ofNat m :: xs < UInt8.ofNat n :: ys :=
  List.cons_lt_cons_iff.2 (.inl (ofNat_lt_ofNat h hn))

/-- Whether the bytes that numbers below a bound are written with are in their order, whatever follows
them. -/
def Ascends (bound : Nat) (write : Nat → List UInt8) : Prop :=
  ∀ m n xs ys, m < n → n < bound → write m ++ xs < write n ++ ys

/-- A marked digit, alone. -/
theorem ascends_lead {bound mark : Nat} (h : bound + mark ≤ 256) :
    Ascends bound fun n => [UInt8.ofNat (n % bound + mark)] := by
  intro m n xs ys hlt hn
  refine cons_lt_cons ?_ ?_ xs ys
  · rwa [Nat.mod_eq_of_lt (Nat.lt_trans hlt hn), Nat.mod_eq_of_lt hn, Nat.add_lt_add_iff_right]
  · rw [Nat.mod_eq_of_lt hn]
    omega

/-- **A digit is put behind those before it.** -/
theorem Ascends.trail {bound : Nat} {write : Nat → List UInt8} (h : Ascends bound write) :
    Ascends (64 * bound) fun n => write (n / 64) ++ [UInt8.ofNat (n % 64 + 128)] := by
  intro m n xs ys hlt hn
  rw [List.append_assoc, List.append_assoc]
  by_cases hhigh : m / 64 < n / 64
  · exact h _ _ _ _ hhigh (by omega)
  · have heq : m / 64 = n / 64 := by omega
    rw [heq]
    exact List.append_left_lt (cons_lt_cons (by omega) (by omega) xs ys)

/-- **Small numbers are written in another way than large ones**, if that puts them before those. -/
theorem Ascends.ite {bound bound' : Nat} {short long : Nat → List UInt8} (largest : Nat)
    (hshort : Ascends bound' short) (hlong : Ascends bound long) (hlargest : largest < bound')
    (hcross : ∀ m n xs ys, m ≤ largest → largest < n → n < bound → short m ++ xs < long n ++ ys) :
    Ascends bound fun n => if n ≤ largest then short n else long n := by
  intro m n xs ys hlt hn
  dsimp only
  by_cases hle : n ≤ largest
  · rw [if_pos (by omega), if_pos hle]
    exact hshort m n xs ys hlt (by omega)
  · rw [if_neg hle]
    split
    · exact hcross m n xs ys ‹_› (by omega) hn
    · exact hlong m n xs ys hlt hn

theorem ascends_one : Ascends 256 fun n => [UInt8.ofNat n] :=
  fun _ _ xs ys hlt hn => cons_lt_cons hlt hn xs ys

theorem ascends_two :
    Ascends 2048 fun n => [UInt8.ofNat (n / 64 % 32 + 192), UInt8.ofNat (n % 64 + 128)] := by
  have hlead : Ascends 32 fun n => [UInt8.ofNat (n % 32 + 192)] := ascends_lead (by decide)
  exact hlead.trail

theorem ascends_three : Ascends 65536 fun n => [UInt8.ofNat (n / 4096 % 16 + 224),
    UInt8.ofNat (n / 64 % 64 + 128), UInt8.ofNat (n % 64 + 128)] := by
  have hlead : Ascends 16 fun n => [UInt8.ofNat (n % 16 + 224)] := ascends_lead (by decide)
  have htrail := hlead.trail.trail
  simp only [Nat.div_div_eq_div_mul] at htrail
  exact htrail

theorem ascends_four : Ascends 2097152 fun n => [UInt8.ofNat (n / 262144 % 8 + 240),
    UInt8.ofNat (n / 4096 % 64 + 128), UInt8.ofNat (n / 64 % 64 + 128),
    UInt8.ofNat (n % 64 + 128)] := by
  have hlead : Ascends 8 fun n => [UInt8.ofNat (n % 8 + 240)] := ascends_lead (by decide)
  have htrail := hlead.trail.trail.trail
  simp only [Nat.div_div_eq_div_mul] at htrail
  exact htrail

/-- **Characters are ordered by their bytes**, whatever follows them. -/
theorem utf8EncodeChar_append_lt {c d : Char} (h : c < d) (xs ys : List UInt8) :
    String.utf8EncodeChar c ++ xs < String.utf8EncodeChar d ++ ys := by
  have hmax : d.val.toNat < 2097152 := by
    rcases d.valid with hvalid | hvalid
    · exact Nat.lt_trans hvalid (by decide)
    · exact Nat.lt_trans hvalid.2 (by decide)
  -- From the longest characters down: each way to write is put before those that take more bytes.
  have hlong := ascends_three.ite 65535 ascends_four (by decide) fun m n xs ys hm hn hmax =>
    cons_lt_cons (by omega) (by omega) _ _
  have hmore := ascends_two.ite 2047 hlong (by decide) fun m n xs ys hm hn hmax => by
    split <;> exact cons_lt_cons (by omega) (by omega) _ _
  have hall := ascends_one.ite 127 hmore (by decide) fun m n xs ys hm hn hmax => by
    split
    · exact cons_lt_cons (by omega) (by omega) _ _
    · split <;> exact cons_lt_cons (by omega) (by omega) _ _
  exact hall _ _ xs ys h hmax

/-! ## Texts -/

theorem toList_loop (bs : ByteArray) (i : Nat) (reversed : List UInt8) :
    ByteArray.toList.loop bs i reversed = reversed.reverse ++ bs.data.toList.drop i := by
  fun_induction ByteArray.toList.loop bs i reversed with
  | case1 i reversed hlt ih =>
    have hlength : i < bs.data.toList.length := by rwa [Array.length_toList]
    have hget : bs.get! i = bs.data.toList[i] := by
      rw [Array.getElem_toList, ← getElem!_pos bs.data i hlt]
      rfl
    rw [ih, List.drop_eq_getElem_cons hlength, hget, List.reverse_cons, List.append_assoc,
      List.singleton_append]
  | case2 i reversed hlt =>
    have hlength : bs.data.toList.length ≤ i := by
      rw [Array.length_toList]
      exact Nat.not_lt.1 hlt
    rw [List.drop_eq_nil_of_le hlength, List.append_nil]

/-- The bytes of a text are those of its characters. -/
theorem bytes_eq_flatMap (s : String) : bytes s = s.toList.flatMap String.utf8EncodeChar := by
  have hlist : s.toUTF8.toList = s.toUTF8.data.toList := toList_loop s.toUTF8 0 []
  rw [bytes, hlist, String.toUTF8_eq_toByteArray, ← String.utf8Encode_toList, List.utf8Encode,
    List.toList_data_toByteArray]

theorem flatMap_utf8EncodeChar_lt {cs ds : List Char} (h : cs < ds) :
    cs.flatMap String.utf8EncodeChar < ds.flatMap String.utf8EncodeChar := by
  induction h with
  | @nil d ds =>
    rw [List.flatMap_nil, List.flatMap_cons]
    cases hbytes : String.utf8EncodeChar d with
    | nil => exact absurd hbytes String.utf8EncodeChar_ne_nil
    | cons b bs => exact List.Lex.nil
  | rel hlt => exact utf8EncodeChar_append_lt hlt _ _
  | cons _ ih => exact List.append_left_lt ih

/-- **Texts are ordered by their bytes.** -/
theorem bytes_lt_bytes {s t : String} : bytes s < bytes t ↔ s < t := by
  have hforth : ∀ {s t : String}, s < t → bytes s < bytes t := fun h => by
    rw [bytes_eq_flatMap, bytes_eq_flatMap]
    exact flatMap_utf8EncodeChar_lt h
  refine ⟨fun h => ?_, hforth⟩
  rcases Std.lt_trichotomy s t with hlt | rfl | hgt
  · exact hlt
  · exact absurd h (List.lt_irrefl _)
  · exact absurd h (List.lt_asymm (hforth hgt))

theorem compare_eq_lt_iff {s t : String} : compare s t = .lt ↔ bytes s < bytes t :=
  compareOfLessAndEq_eq_lt.trans bytes_lt_bytes.symm

end Reporting.Text
