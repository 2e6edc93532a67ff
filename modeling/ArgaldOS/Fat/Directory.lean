import ArgaldOS.Fat.Volume

/-! # Directory sectors

    What `parse_directory_sector` makes of the sixteen slots of a directory
    sector: which slots it lists, and which numbers it takes from them.

    * `parse_directory_sector_eq`: the slots that are listed;
    * `charWord_right_iff`: when two signed characters make a word;
    * `entries_decoded_iff`: when the entries of a sector are decoded right;
    * `lists_live_iff`: when the listed slots are the live ones.
-/

namespace ArgaldOS

/-! ## Section 1: The slots that are listed -/

/-- The slots that the code lists, in the order of the disk. -/
def listedSlots (directory : Sector) : List Nat := (List.range 16).filter (Listed directory)

theorem mem_listedSlots {directory : Sector} {i : Nat} :
    i ∈ listedSlots directory ↔ i < 16 ∧ Listed directory i := by
  simp [listedSlots]

/-- **One entry for each listed slot.** -/
theorem parse_directory_sector_eq (directory : Sector) :
    parse_directory_sector (some directory) = (listedSlots directory).map (dirEntry directory) := by
  unfold parse_directory_sector listedSlots
  dsimp only
  induction List.range 16 with
  | nil => rfl
  | cons i is ih =>
    by_cases hl : Listed directory i
    · simp [hl, ih]
    · simp [hl, ih]

/-! ## Section 2: Words of signed characters -/

/-- Sign extension of a character. -/
theorem toNat_signExtend_char (b : UInt8) :
    b.toInt8.toInt16.toUInt16.toNat = if b.toNat < 128 then b.toNat else 0xFF00 + b.toNat := by
  have hb := b.toNat_lt
  have hmsb : b.toBitVec.msb = decide (128 ≤ b.toNat) := BitVec.msb_eq_decide _
  show (b.toBitVec.signExtend 16).toNat = _
  rw [BitVec.toNat_signExtend, hmsb, BitVec.toNat_setWidth, UInt8.toNat_toBitVec,
    Nat.mod_eq_of_lt (by omega)]
  by_cases h : b.toNat < 128
  · rw [decide_eq_false (by omega), if_pos h]
    simp
  · rw [decide_eq_true (by omega), if_neg h]
    simp
    omega

/-- A negative low character sets all bits of the high byte. -/
theorem toNat_charWord (hi lo : UInt8) :
    (charWord hi lo).toNat =
      if lo.toNat < 128 then hi.toNat * 2 ^ 8 + lo.toNat else 0xFF00 + lo.toNat := by
  have hhi := hi.toNat_lt
  have hlo := lo.toNat_lt
  have hshift : (hi.toInt8.toInt16.toUInt16 <<< 8).toNat = hi.toNat * 2 ^ 8 := by
    have hsign := toNat_signExtend_char hi
    rw [UInt16.toNat_shiftLeft, Nat.shiftLeft_eq]
    show hi.toInt8.toInt16.toUInt16.toNat * 2 ^ 8 % 2 ^ 16 = _
    split at hsign <;> omega
  unfold charWord
  rw [UInt16.toNat_or, hshift, toNat_signExtend_char]
  by_cases h : lo.toNat < 128
  · rw [if_pos h, if_pos h]
    exact Words.lor_eq_add _ _ 8 (Nat.mul_mod_left _ _) hlo
  · rw [if_neg h, if_neg h]
    have hones : hi.toNat ||| 0xFF = 0xFF :=
      congrArg BitVec.toNat (BitVec.or_allOnes (x := hi.toBitVec))
    have hsum : 0xFF00 + lo.toNat = (0xFF <<< 8) ||| lo.toNat :=
      (Words.shiftLeft_or 0xFF hlo).symm
    rw [hsum, ← Nat.shiftLeft_eq, ← Nat.or_assoc, ← Nat.shiftLeft_or_distrib, hones]

/-- Two characters make the word of their bytes if the low one is positive, or
    the high one has all bits set anyway. -/
theorem charWord_right_iff (hi lo : UInt8) :
    (charWord hi lo).toNat = lo.toNat + 256 * hi.toNat ↔ lo < 0x80 ∨ hi = 0xFF := by
  have hhi := hi.toNat_lt
  have hlow : lo < 0x80 ↔ lo.toNat < 128 := UInt8.lt_iff_toNat_lt
  have hhigh : hi = 0xFF ↔ hi.toNat = 255 := UInt8.toNat_inj.symm
  rw [toNat_charWord, hlow, hhigh]
  split <;> omega

/-! ## Section 3: The numbers of an entry -/

/-- The numbers of an entry are those of its slot. -/
structure Decoded (directory : Sector) (i : Nat) (entry : DIR_ENTRY) : Prop where
  high  : entry.dir_first_cluster_high.toNat = littleEndian directory (i * 32 + 0x14) 2
  low   : entry.dir_first_cluster_low.toNat = littleEndian directory (i * 32 + 0x1A) 2
  size  : entry.dir_file_size.toNat = littleEndian directory (i * 32 + 0x1C) 4
  whole : entry.dir_first_cluster.toNat =
    entry.dir_first_cluster_high.toNat * 65536 + entry.dir_first_cluster_low.toNat

/-- In both words of the first cluster, the low byte is below 0x80 or the high
    byte is 0xFF. -/
def SignsHarmless (directory : Sector) (i : Nat) : Prop :=
  (directory (i * 32 + 0x14) < 0x80 ∨ directory (i * 32 + 0x15) = 0xFF) ∧
    (directory (i * 32 + 0x1A) < 0x80 ∨ directory (i * 32 + 0x1B) = 0xFF)

instance (directory : Sector) (i : Nat) : Decidable (SignsHarmless directory i) :=
  inferInstanceAs (Decidable (_ ∧ _))

theorem littleEndian_pair (directory : Sector) (offset : Nat) :
    littleEndian directory offset 2 =
      (directory offset).toNat + 256 * (directory (offset + 1)).toNat := rfl

/-- The numbers that go through `combine32bit` are right in any case. -/
theorem dirEntry_whole (directory : Sector) (i : Nat) :
    (dirEntry directory i).dir_first_cluster.toNat =
      littleEndian directory (i * 32 + 0x14) 2 * 65536 +
        littleEndian directory (i * 32 + 0x1A) 2 := by
  show (combine32bit (directory (i * 32 + 0x14 + 1)) (directory (i * 32 + 0x14))
    (directory (i * 32 + 0x1A + 1)) (directory (i * 32 + 0x1A))).toNat = _
  rw [toNat_combine32bit, littleEndian_pair, littleEndian_pair]
  omega

/-- **An entry is decoded right exactly if** the signs of its characters do no
    harm. -/
theorem decoded_iff (directory : Sector) (i : Nat) :
    Decoded directory i (dirEntry directory i) ↔ SignsHarmless directory i := by
  have hhigh := charWord_right_iff (directory (i * 32 + 0x15)) (directory (i * 32 + 0x14))
  have hlow := charWord_right_iff (directory (i * 32 + 0x1B)) (directory (i * 32 + 0x1A))
  constructor
  · intro h
    exact ⟨hhigh.mp h.high, hlow.mp h.low⟩
  · rintro ⟨h14, h1A⟩
    have hword14 : (dirEntry directory i).dir_first_cluster_high.toNat =
        littleEndian directory (i * 32 + 0x14) 2 := hhigh.mpr h14
    have hword1A : (dirEntry directory i).dir_first_cluster_low.toNat =
        littleEndian directory (i * 32 + 0x1A) 2 := hlow.mpr h1A
    have hsize : (dirEntry directory i).dir_file_size.toNat =
        littleEndian directory (i * 32 + 0x1C) 4 := (littleEndian_four directory _).symm
    refine ⟨hword14, hword1A, hsize, ?_⟩
    rw [dirEntry_whole, hword14, hword1A]

/-- **Main theorem on directory entries**: the entries of a sector are decoded
    right exactly if the signs do no harm in any slot that is listed. -/
theorem entries_decoded_iff (directory : Sector) :
    List.Forall₂ (Decoded directory) (listedSlots directory)
        (parse_directory_sector (some directory)) ↔
      ∀ i < 16, Listed directory i → SignsHarmless directory i := by
  rw [parse_directory_sector_eq, List.forall₂_map_right_iff, List.forall₂_same]
  constructor
  · intro h i hi hl
    exact (decoded_iff directory i).mp (h i (mem_listedSlots.mpr ⟨hi, hl⟩))
  · intro h i hi
    obtain ⟨hlt, hl⟩ := mem_listedSlots.mp hi
    exact (decoded_iff directory i).mpr (h i hlt hl)

/-- A directory with one file, whose first cluster is 128. -/
def cluster128Directory : Sector := sectorOf [(0, 0x46), (0x0B, 0x20), (0x1A, 0x80)]

/-- Its low word is 0xFF80, and the whole number is not the two words. -/
theorem entries_decoded_cluster128 :
    (parse_directory_sector (some cluster128Directory)).map
        (fun e => (e.dir_first_cluster_high, e.dir_first_cluster_low, e.dir_first_cluster)) =
      [(0, 0xFF80, 128)] ∧
      ¬ List.Forall₂ (Decoded cluster128Directory) (listedSlots cluster128Directory)
        (parse_directory_sector (some cluster128Directory)) := by
  have hparse := parse_directory_sector_eq cluster128Directory
  have hslots : listedSlots cluster128Directory = [0] := by decide
  rw [hparse, hslots, List.map_singleton]
  constructor
  · decide +kernel
  · intro h
    have hdecoded := (List.forall₂_cons.mp h).1
    rw [decoded_iff] at hdecoded
    exact absurd hdecoded (by decide)

/-! ## Section 4: Live slots -/

/-- A slot is live: there is no end mark up to it, and it is neither deleted nor
    part of a long name. -/
def Live (directory : Sector) (i : Nat) : Prop :=
  (∀ j < i + 1, directory (j * 32) ≠ 0x00) ∧ directory (i * 32) ≠ 0xE5 ∧
    directory (i * 32 + 0x0B) ≠ 0x0F

instance (directory : Sector) (i : Nat) : Decidable (Live directory i) :=
  inferInstanceAs (Decidable (_ ∧ _))

/-- The live slots, in the order of the disk. -/
def liveSlots (directory : Sector) : List Nat := (List.range 16).filter (Live directory)

theorem Live.listed {directory : Sector} {i : Nat} (h : Live directory i) :
    Listed directory i :=
  ⟨h.1 i (by omega), h.2.2⟩

theorem liveSlots_eq (directory : Sector) :
    liveSlots directory = (listedSlots directory).filter (Live directory) := by
  unfold liveSlots listedSlots
  rw [List.filter_filter]
  apply List.filter_congr
  intro i _
  by_cases hlive : Live directory i
  · simp [hlive, hlive.listed]
  · simp [hlive]

/-- The code lists the live slots, and as many entries as there are. -/
def ListsLive (directory : Sector) : Prop :=
  parse_directory_sector (some directory) = (liveSlots directory).map (dirEntry directory) ∧
    (parse_directory_sector (some directory)).length = (liveSlots directory).length

/-- **Main theorem on listings**: the live entries are listed exactly if no other
    slot is, that is, no deleted one and none behind the end mark. -/
theorem lists_live_iff (directory : Sector) :
    ListsLive directory ↔
      ∀ i < 16, Listed directory i →
        directory (i * 32) ≠ 0xE5 ∧ ∀ j < i, directory (j * 32) ≠ 0x00 := by
  have hlive : ∀ i, Listed directory i →
      (Live directory i ↔ directory (i * 32) ≠ 0xE5 ∧ ∀ j < i, directory (j * 32) ≠ 0x00) := by
    intro i hl
    constructor
    · intro h
      exact ⟨h.2.1, fun j hj => h.1 j (by omega)⟩
    · rintro ⟨hdeleted, hend⟩
      refine ⟨?_, hdeleted, hl.2⟩
      intro j hj
      rcases Nat.eq_or_lt_of_le (Nat.le_of_lt_succ hj) with rfl | hlt
      · exact hl.1
      · exact hend j hlt
  unfold ListsLive
  rw [parse_directory_sector_eq, liveSlots_eq, List.length_map]
  constructor
  · rintro ⟨-, hlength⟩ i hi hl
    -- A listed slot that is not live makes the list longer.
    have hall := List.length_filter_eq_length_iff.mp hlength.symm i (mem_listedSlots.mpr ⟨hi, hl⟩)
    exact (hlive i hl).mp (of_decide_eq_true hall)
  · intro h
    have hself : (listedSlots directory).filter (Live directory) = listedSlots directory := by
      rw [List.filter_eq_self]
      intro i hi
      obtain ⟨hlt, hl⟩ := mem_listedSlots.mp hi
      exact decide_eq_true ((hlive i hl).mpr (h i hlt hl))
    rw [hself]
    exact ⟨rfl, rfl⟩

/-- A directory with a deleted file, and what an older directory left behind the
    end mark. -/
def deletedDirectory : Sector :=
  sectorOf [(0, 0xE5), (0x0B, 0x20), (32, 0x00), (64, 0x47), (64 + 0x0B, 0x20)]

/-- Both are listed, and nothing is live. -/
theorem lists_live_deleted :
    listedSlots deletedDirectory = [0, 2] ∧ liveSlots deletedDirectory = [] ∧
      ¬ ListsLive deletedDirectory := by
  have hlive : liveSlots deletedDirectory = [] := by decide
  have hlisted : listedSlots deletedDirectory = [0, 2] := by decide
  refine ⟨hlisted, hlive, ?_⟩
  intro h
  have hlength := h.2
  rw [parse_directory_sector_eq, hlisted, hlive] at hlength
  exact absurd hlength (by simp)

end ArgaldOS
