import Mathlib

/-!
# Address prefixes

A `Net w` is an address of `w` bits together with the number of leading bits that matter.  Two such sets of
addresses are nested or disjoint, and masking an address gives a key that finds exactly the nets that contain
it (`contains_iff_network`).
-/

namespace Cidr

open BitVec

def mask (w len : ℕ) : BitVec w := BitVec.allOnes w <<< (w - len)

structure Net (w : ℕ) where
  addr : BitVec w
  prefixLen : Fin (w + 1)
deriving DecidableEq

namespace Net

variable {w : ℕ} (n m : Net w) {a b : BitVec w}

def netmask : BitVec w := mask w n.prefixLen

def network : BitVec w := n.addr &&& n.netmask

def broadcast : BitVec w := n.addr ||| ~~~n.netmask

/-- The same net with nothing in the bits that do not matter. -/
def trunc : Net w := ⟨n.network, n.prefixLen⟩

def contains (a : BitVec w) : Bool := n.addr >>> (w - n.prefixLen) = a >>> (w - n.prefixLen)

def size : ℕ := 2 ^ (w - n.prefixLen)

end Net

variable {w : ℕ} {a b : BitVec w}

lemma and_mask (a : BitVec w) (len : ℕ) : a &&& mask w len = a >>> (w - len) <<< (w - len) := by
  apply eq_of_getLsbD_eq
  intro i hi
  simp only [mask, getLsbD_and, getLsbD_shiftLeft, getLsbD_allOnes,
    getLsbD_ushiftRight, hi, decide_true, Bool.true_and]
  by_cases hlt : i < w - len
  · simp [hlt]
  · have hsub : i - (w - len) < w := by omega
    rw [Nat.add_sub_cancel' (not_lt.mp hlt)]
    simp [hlt, hsub]

lemma and_mask_eq_iff {len : ℕ} :
    a &&& mask w len = b &&& mask w len ↔ a >>> (w - len) = b >>> (w - len) := by
  rw [and_mask, and_mask]
  constructor
  · intro h
    apply eq_of_getLsbD_eq
    intro i hi
    simp only [getLsbD_ushiftRight]
    by_cases hlt : w - len + i < w
    · have hbit := congrArg (fun x : BitVec w => x.getLsbD (w - len + i)) h
      simpa [hlt] using hbit
    · rw [getLsbD_of_ge a _ (not_lt.mp hlt), getLsbD_of_ge b _ (not_lt.mp hlt)]
  · exact fun h => by rw [h]

lemma shift_eq_of_le {len len' : ℕ} (hle : len ≤ len') (h : a >>> (w - len') = b >>> (w - len')) :
    a >>> (w - len) = b >>> (w - len) := by
  have hsplit : w - len = w - len' + ((w - len) - (w - len')) := by omega
  rw [hsplit, shiftRight_add, shiftRight_add, h]

namespace Net

variable {n m : Net w}

lemma contains_iff : n.contains a = true ↔ n.addr >>> (w - n.prefixLen) = a >>> (w - n.prefixLen) :=
  decide_eq_true_iff

lemma contains_addr (n : Net w) : n.contains n.addr = true := contains_iff.mpr rfl

lemma contains_iff_network : n.contains a = true ↔ a &&& mask w n.prefixLen = n.network := by
  rw [contains_iff, network, netmask, and_mask_eq_iff, eq_comm]

lemma contains_of_contains (hle : n.prefixLen ≤ m.prefixLen) (hm : n.contains m.addr = true)
    (ha : m.contains a = true) : n.contains a = true := by
  rw [contains_iff] at *
  rw [hm]
  exact shift_eq_of_le hle ha

lemma contains_addr_of_common (hle : n.prefixLen ≤ m.prefixLen) (hn : n.contains a = true)
    (hm : m.contains a = true) : n.contains m.addr = true := by
  rw [contains_iff] at *
  rw [hn]
  exact (shift_eq_of_le hle hm).symm

lemma eq_addr_of_contains (hlen : n.prefixLen = Fin.last w) (h : n.contains a = true) : a = n.addr := by
  rw [contains_iff, hlen, Fin.val_last, Nat.sub_self, ushiftRight_zero,
    ushiftRight_zero] at h
  exact h.symm

@[simp] lemma network_trunc : n.trunc.network = n.network := by
  rw [network, trunc, netmask, network, netmask, BitVec.and_assoc, BitVec.and_self]

@[simp] lemma contains_trunc : n.trunc.contains a = n.contains a := by
  rw [Bool.eq_iff_iff, contains_iff_network, contains_iff_network, network_trunc]
  rfl

/-! ## As numbers -/

lemma size_pos (n : Net w) : 0 < n.size := Nat.two_pow_pos _

lemma toNat_network : n.network.toNat = n.addr.toNat / n.size * n.size := by
  have hlt : n.addr.toNat / n.size * n.size < 2 ^ w :=
    (Nat.div_mul_le_self _ _).trans_lt n.addr.isLt
  rw [network, netmask, and_mask, toNat_shiftLeft, toNat_ushiftRight,
    Nat.shiftLeft_eq, Nat.shiftRight_eq_div_pow]
  exact Nat.mod_eq_of_lt hlt

lemma network_add_size_le (n : Net w) : n.network.toNat + n.size ≤ 2 ^ w := by
  have hpow : 2 ^ w = 2 ^ (n.prefixLen : ℕ) * n.size := by
    rw [size, ← pow_add, Nat.add_sub_cancel' (Nat.le_of_lt_succ n.prefixLen.isLt)]
  have hlt : n.addr.toNat / n.size < 2 ^ (n.prefixLen : ℕ) := by
    rw [Nat.div_lt_iff_lt_mul n.size_pos, ← hpow]
    exact n.addr.isLt
  rw [toNat_network, hpow, ← Nat.succ_mul]
  exact Nat.mul_le_mul_right _ hlt

lemma toNat_netmask : n.netmask.toNat = 2 ^ w - n.size := by
  have hle : n.size ≤ 2 ^ w := Nat.pow_le_pow_right Nat.two_pos (Nat.sub_le w n.prefixLen)
  have hpos := n.size_pos
  have hmul : (2 ^ w - 1) * n.size = 2 ^ w - n.size + 2 ^ w * (n.size - 1) := by
    obtain ⟨k, hk⟩ := Nat.exists_eq_add_of_le' hpos
    obtain ⟨d, hd⟩ := Nat.exists_eq_add_of_le' hle
    rw [hd, hk, Nat.add_sub_cancel, Nat.add_sub_cancel, ← Nat.add_assoc, Nat.add_sub_cancel]
    ring
  rw [netmask, mask, toNat_shiftLeft, toNat_allOnes, Nat.shiftLeft_eq, ← size, hmul,
    Nat.add_mul_mod_self_left]
  exact Nat.mod_eq_of_lt (Nat.sub_lt (Nat.two_pow_pos w) hpos)

lemma toNat_broadcast : n.broadcast.toNat = n.network.toNat + (n.size - 1) := by
  have hsplit : n.broadcast = n.network ||| ~~~n.netmask := by
    apply eq_of_getLsbD_eq
    intro i hi
    simp only [broadcast, network, getLsbD_or, getLsbD_and, getLsbD_not, hi,
      decide_true, Bool.true_and]
    cases n.netmask.getLsbD i <;> simp
  have hdisjoint : n.network &&& ~~~n.netmask = 0#w := by
    rw [network, BitVec.and_assoc, BitVec.and_not_self]
    exact BitVec.and_zero
  have hle := n.network_add_size_le
  have hpos := n.size_pos
  have hhost : (~~~n.netmask).toNat = n.size - 1 := by
    rw [toNat_not, toNat_netmask]
    omega
  rw [hsplit, ← add_eq_or_of_and_eq_zero _ _ hdisjoint, toNat_add, hhost]
  exact Nat.mod_eq_of_lt (by omega)

end Net

end Cidr
