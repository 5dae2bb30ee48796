import AccessList.Net.Cidr
import Mathlib.Algebra.Group.Nat.Defs

/-!
# Blocks in machine words

An address of either family fits in a word of 128 bits and a length in a byte. Masking and shifting words does what
blocks do, and no step of it leaves the word or the byte.
-/

namespace AccessList

/-! ## Checked operations -/

abbrev Word := BitVec 128

namespace Byte

def add? (a b : UInt8) : Option UInt8 := if a.toNat + b.toNat < 256 then some (a + b) else none

def sub? (a b : UInt8) : Option UInt8 := if b ≤ a then some (a - b) else none

theorem toNat_ofNat {n : Nat} (h : n ≤ 128) : (UInt8.ofNat n).toNat = n :=
  UInt8.toNat_ofNat_of_lt' (Nat.lt_of_le_of_lt h (by decide))

theorem ofNat_lt_iff {m n : Nat} (hm : m ≤ 128) (hn : n ≤ 128) : UInt8.ofNat m < UInt8.ofNat n ↔ m < n := by
  rw [UInt8.lt_iff_toNat_lt, toNat_ofNat hm, toNat_ofNat hn]

theorem ofNat_inj {m n : Nat} (hm : m ≤ 128) (hn : n ≤ 128) : UInt8.ofNat m = UInt8.ofNat n ↔ m = n := by
  rw [← UInt8.toNat_inj, toNat_ofNat hm, toNat_ofNat hn]

theorem sub?_ofNat {m n : Nat} (hm : m ≤ 128) (hn : n ≤ m) :
    sub? (.ofNat m) (.ofNat n) = some (.ofNat (m - n)) := by
  have hle : UInt8.ofNat n ≤ UInt8.ofNat m := by
    rwa [UInt8.le_iff_toNat_le, toNat_ofNat hm, toNat_ofNat (Nat.le_trans hn hm)]
  rw [sub?, if_pos hle, UInt8.ofNat_sub hn]

theorem add?_ofNat_one {n : Nat} (hn : n ≤ 128) : add? (.ofNat n) 1 = some (.ofNat (n + 1)) := by
  have hlt : (UInt8.ofNat n).toNat + (1 : UInt8).toNat < 256 := by
    rw [toNat_ofNat hn]
    exact Nat.lt_of_le_of_lt (Nat.add_le_add_right hn 1) (by decide)
  rw [add?, if_pos hlt, UInt8.ofNat_add]
  rfl

theorem lt_of_add?_one {a b : UInt8} (h : add? a 1 = some b) : a < b := by
  unfold add? at h
  split at h
  · rename_i hlt
    cases h
    change a.toNat + 1 < 256 at hlt
    rw [UInt8.lt_iff_toNat_lt, UInt8.toNat_add, show (1 : UInt8).toNat = 1 from rfl, Nat.mod_eq_of_lt hlt]
    exact Nat.lt_succ_self _
  · cases h

end Byte

namespace Word

def shl? (x : Word) (k : UInt8) : Option Word := if k < 128 then some (x <<< k.toNat) else none

theorem shl?_ofNat (x : Word) {k : Nat} (hk : k < 128) : shl? x (.ofNat k) = some (x <<< k) := by
  have hlt : UInt8.ofNat k < 128 := (Byte.ofNat_lt_iff (Nat.le_of_lt hk) (Nat.le_refl _)).mpr hk
  rw [shl?, if_pos hlt, Byte.toNat_ofNat (Nat.le_of_lt hk)]

theorem shl?_width (x : Word) : shl? x (.ofNat 128) = none := rfl

theorem toNat_ofNat {n : Nat} (h : n < 2 ^ 128) : (BitVec.ofNat 128 n).toNat = n := by
  rw [BitVec.toNat_ofNat, Nat.mod_eq_of_lt h]

theorem ofNat_inj {m n : Nat} (hm : m < 2 ^ 128) (hn : n < 2 ^ 128) :
    BitVec.ofNat 128 m = BitVec.ofNat 128 n ↔ m = n := by
  rw [BitVec.toNat_eq, toNat_ofNat hm, toNat_ofNat hn]

theorem one_shiftLeft (k : Nat) : (1 : Word) <<< k = .ofNat 128 (2 ^ k) := by
  apply BitVec.eq_of_toNat_eq
  rw [BitVec.toNat_shiftLeft, BitVec.toNat_ofNat, Nat.shiftLeft_eq]
  exact congrArg (· % 2 ^ 128) (Nat.one_mul _)

end Word

namespace Family

def maxLength : Family → UInt8
  | inet => 32
  | inet6 => 128

def ones : Family → Word
  | inet => 0xffffffff
  | inet6 => BitVec.allOnes 128

theorem maxLength_eq (family : Family) : family.maxLength = .ofNat family.width := by cases family <;> rfl

theorem count_le (family : Family) : family.count ≤ 2 ^ 128 := Nat.pow_le_pow_right (by decide) family.width_le_word

theorem toNat_ones (family : Family) : family.ones.toNat = family.count - 1 := by cases family <;> rfl

def cut (family : Family) (x : Word) : Word := x &&& family.ones

theorem toNat_cut (family : Family) (x : Word) : (family.cut x).toNat = x.toNat % family.count := by
  rw [cut, BitVec.toNat_and, toNat_ones]
  exact Nat.and_two_pow_sub_one_eq_mod _ _

theorem cut_eq {family : Family} {x : Word} {n : Nat} (h : x.toNat % family.count = n) :
    family.cut x = .ofNat 128 n := by
  subst h
  apply BitVec.eq_of_toNat_eq
  rw [toNat_cut, Word.toNat_ofNat (Nat.lt_of_lt_of_le (Nat.mod_lt _ family.count_pos) family.count_le)]

theorem cut_ofNat {family : Family} {n : Nat} (h : n < family.count) : family.cut (.ofNat 128 n) = .ofNat 128 n :=
  cut_eq (by rw [Word.toNat_ofNat (Nat.lt_of_lt_of_le h family.count_le), Nat.mod_eq_of_lt h])

end Family

/-! ## Blocks -/

structure WordBlock where
  family : Family
  word : Word
  length : UInt8
deriving DecidableEq

namespace WordBlock

def Admissible (b : WordBlock) : Prop := b.length ≤ b.family.maxLength ∧ b.word.toNat < b.family.count

def hostBits? (b : WordBlock) : Option UInt8 := Byte.sub? b.family.maxLength b.length

def size? (b : WordBlock) : Option Word := b.hostBits?.map fun k => (Word.shl? 1 k).getD (BitVec.allOnes 128)

/-- The bits that matter. A length of zero is left out since its shift can be too far. -/
def mask? (b : WordBlock) : Option Word :=
  if b.length = 0 then some 0
  else do
    let k ← b.hostBits?
    let high ← Word.shl? b.family.ones k
    return high &&& b.family.ones

def network? (b : WordBlock) : Option Word := b.mask?.map fun m => b.family.cut (b.word &&& m)

def netmask? (b : WordBlock) : Option Word := b.mask?.map b.family.cut

def hostmask? (b : WordBlock) : Option Word := b.mask?.map fun m => b.family.cut (~~~m &&& b.family.ones)

def normalized? (b : WordBlock) : Option WordBlock := b.network?.map fun n => ⟨b.family, n, b.length⟩

def contains? (b c : WordBlock) : Option Bool :=
  if b.family ≠ c.family ∨ c.length < b.length then some false
  else do
    let m ← b.mask?
    let n ← b.network?
    return c.word &&& m == n

/-- The two halves. A single address has none and stands for both. -/
def halves? (b : WordBlock) : Option (WordBlock × WordBlock) :=
  if b.length = b.family.maxLength then some (b, b)
  else do
    let length ← Byte.add? b.length 1
    let base ← b.network?
    let k ← Byte.sub? b.family.maxLength length
    let bit ← Word.shl? 1 k
    return (⟨b.family, b.family.cut base, length⟩, ⟨b.family, b.family.cut (base ||| bit), length⟩)

theorem lt_length_of_halves? (b : WordBlock) {lower upper : WordBlock} (hhalves : b.halves? = some (lower, upper))
    (h : b.length < b.family.maxLength) :
    (b.length < lower.length ∧ lower.family = b.family) ∧ b.length < upper.length ∧ upper.family = b.family := by
  have hne : b.length ≠ b.family.maxLength := UInt8.ne_of_lt h
  simp only [halves?, if_neg hne, Option.bind_eq_bind, Option.bind_eq_some_iff, Option.pure_def, Option.some.injEq,
    Prod.mk.injEq] at hhalves
  obtain ⟨length, hlength, base, -, k, -, bit, -, rfl, rfl⟩ := hhalves
  have hlonger := Byte.lt_of_add?_one hlength
  exact ⟨⟨hlonger, rfl⟩, hlonger, rfl⟩

def order (b c : WordBlock) : Ordering :=
  (compare b.family.rank c.family.rank).then
    ((compare b.word.toNat c.word.toNat).then (compare b.length.toNat c.length.toNat))

def sort (bs : List WordBlock) : List WordBlock := bs.mergeSort fun b c => (order b c).isLE

end WordBlock

structure Halving where
  current : WordBlock
  aside : List WordBlock

namespace Halving

/-- The half with the target is split on, the other one is put aside. -/
def step? (target : WordBlock) (s : Halving) : Option Halving := do
  let (lower, upper) ← s.current.halves?
  let inLower ← lower.contains? target
  return if inLower then ⟨lower, s.aside ++ [upper]⟩ else ⟨upper, s.aside ++ [lower]⟩

/-- Splits until the current half is as long as the target. A round that leaves the length as it is would come again
for good. -/
def run? (target : WordBlock) (s : Halving) : Option Halving :=
  if s.current.length < target.length then do
    let next ← s.step? target
    if s.current.length < next.current.length then run? target next else none
  else some s
termination_by 256 - s.current.length.toNat
decreasing_by
  have := next.current.length.toNat_lt
  simp only [UInt8.lt_iff_toNat_lt] at *
  omega

inductive Ends (target : WordBlock) : Halving → Nat → Halving → Prop
  | stop {s : Halving} (h : ¬s.current.length < target.length) : Ends target s 0 s
  | round {s next s' : Halving} {n : Nat} (h : s.current.length < target.length)
      (hstep : s.step? target = some next) (hrest : Ends target next n s') : Ends target s (n + 1) s'

variable {target : WordBlock} {s s' next : Halving} {n : Nat}

theorem Ends.unique (h : Ends target s n s') {m : Nat} {t : Halving} (h' : Ends target s m t) : m = n ∧ t = s' := by
  induction h generalizing m with
  | stop h =>
    cases h' with
    | stop => exact ⟨rfl, rfl⟩
    | round h' => exact absurd h' h
  | round h hstep hrest ih =>
    cases h' with
    | stop h' => exact absurd h h'
    | round _ hstep' hrest' =>
      rw [hstep, Option.some.injEq] at hstep'
      subst hstep'
      obtain ⟨hm, ht⟩ := ih hrest'
      exact ⟨congrArg (· + 1) hm, ht⟩

/-- While there is something to halve, a round comes to a longer block of the family. -/
theorem lt_length_of_step? (hstep : s.step? target = some next)
    (h : s.current.length < s.current.family.maxLength) :
    s.current.length < next.current.length ∧ next.current.family = s.current.family := by
  simp only [step?, Option.bind_eq_bind, Option.bind_eq_some_iff, Prod.exists, Option.pure_def,
    Option.some.injEq] at hstep
  obtain ⟨lower, upper, hhalves, inLower, -, rfl⟩ := hstep
  obtain ⟨hlower, hupper⟩ := s.current.lt_length_of_halves? hhalves h
  cases inLower
  · exact hupper
  · exact hlower

theorem Ends.run?_eq (h : Ends target s n s') (hlength : target.length ≤ s.current.family.maxLength) :
    run? target s = some s' := by
  induction h with
  | stop h => rw [run?, if_neg h]
  | round h hstep hrest ih =>
    obtain ⟨hlonger, hfamily⟩ := lt_length_of_step? hstep (UInt8.lt_of_lt_of_le h hlength)
    rw [run?, if_pos h, hstep, Option.bind_eq_bind, Option.bind_some, if_pos hlonger]
    apply ih
    rw [hfamily]
    exact hlength

end Halving

def WordBlock.minus? (b c : WordBlock) : Option (List WordBlock) := do
  if ← b.contains? c then
    let target ← c.normalized?
    let current ← b.normalized?
    let s ← Halving.run? target ⟨current, []⟩
    return sort s.aside
  else if ← c.contains? b then return []
  else return [b]

end AccessList
