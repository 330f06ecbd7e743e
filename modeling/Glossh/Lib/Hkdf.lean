/-
# HMAC, HKDF and the TLS 1.3 key schedule over any hash function

RFC 2104 (HMAC), RFC 5869 (HKDF) and RFC 8446 section 7.1 (the key schedule), for a hash function
`H` with outputs of `n` bytes and blocks of `B` bytes.

The output of HKDF-Expand is a prefix of a chain of blocks in which each block is computed from
the one before.  `chained` is that construction for any step function, so that an implementation
whose step may go wrong is compared with the RFC's step by step (`getElem?_chained`,
`chained_congr`).
-/
import Glossh.Lib.Bytes

namespace Glossh
namespace Hkdf

open Bytes

/-! ## 1. Chains of blocks -/

section

variable {n : ℕ}

/-- Block `i` of a chain: each block is made from its index and the block before it, the first
from nothing. -/
def chain (step : ℕ → Bytes → Vector UInt8 n) : ℕ → Bytes
  | 0 => []
  | i + 1 => (step i (chain step i)).toList

/-- The first `L` bytes of the blocks 1, 2, ... of a chain. -/
def chained (step : ℕ → Bytes → Vector UInt8 n) (L : ℕ) : Bytes :=
  ((List.range ((L + n - 1) / n)).flatMap fun i => chain step (i + 1)).take L

theorem length_chain (step : ℕ → Bytes → Vector UInt8 n) (i : ℕ) :
    (chain step (i + 1)).length = n := by
  simp [chain]

theorem length_blocks (step : ℕ → Bytes → Vector UInt8 n) (k : ℕ) :
    ((List.range k).flatMap fun i => chain step (i + 1)).length = n * k := by
  rw [length_flatMap_const (length_chain step), List.length_range]

/-- As many blocks as it takes are taken. -/
theorem le_mul_blocks (hn : 0 < n) (L : ℕ) : L ≤ n * ((L + n - 1) / n) := by
  have hdiv := Nat.div_add_mod (L + n - 1) n
  have hmod := Nat.mod_lt (L + n - 1) hn
  omega

theorem length_chained (hn : 0 < n) (step : ℕ → Bytes → Vector UInt8 n) (L : ℕ) :
    (chained step L).length = L := by
  have hle := le_mul_blocks hn L
  rw [chained, List.length_take, length_blocks]
  omega

/-- Only the blocks taken matter. -/
theorem chain_congr {s t : ℕ → Bytes → Vector UInt8 n} {k : ℕ} (h : ∀ i < k, s i = t i) :
    ∀ i ≤ k, chain s i = chain t i := by
  intro i hi
  induction i with
  | zero => rfl
  | succ i ih => rw [chain, chain, ih (by omega), h i (by omega)]

theorem chained_congr {s t : ℕ → Bytes → Vector UInt8 n} {L : ℕ}
    (h : ∀ i < (L + n - 1) / n, s i = t i) : chained s L = chained t L := by
  have hblocks : (List.range ((L + n - 1) / n)).flatMap (fun i => chain s (i + 1)) =
      (List.range ((L + n - 1) / n)).flatMap (fun i => chain t (i + 1)) := by
    refine List.flatMap_congr fun i hi => ?_
    exact chain_congr h (i + 1) (List.mem_range.mp hi)
  rw [chained, chained, hblocks]

/-- An output that fits into one block. -/
theorem chained_block (step : ℕ → Bytes → Vector UInt8 n) {L : ℕ} (h0 : 0 < L) (hL : L ≤ n) :
    chained step L = (step 0 []).toList.take L := by
  have hone : (L + n - 1) / n = 1 := by
    rw [Nat.div_eq_iff (by omega)]
    omega
  rw [chained, hone, List.range_one, List.flatMap_singleton]
  rfl

/-- A chain is written out one block after the other, the last one cut off. -/
theorem drop_chained (hn : 0 < n) (step : ℕ → Bytes → Vector UInt8 n) {L i : ℕ}
    (h : n * i < L) :
    (chained step L).drop (n * i) =
      (chain step (i + 1)).take (L - n * i) ++ (chained step L).drop (n * (i + 1)) := by
  have hi : i < (L + n - 1) / n :=
    Nat.lt_of_mul_lt_mul_left (lt_of_lt_of_le h (le_mul_blocks hn L))
  have hblock : (((chained step L).drop (n * i)).take n) =
      (chain step (i + 1)).take (L - n * i) := by
    refine List.ext_getElem? fun j => ?_
    have hlen := length_chain step i
    rw [List.getElem?_take, List.getElem?_take, List.getElem?_drop]
    by_cases hj : j < n
    · have hget := getElem?_flatMap_const (length_chain step) hj (List.range ((L + n - 1) / n)) i
      rw [List.getElem?_range hi] at hget
      rw [if_pos hj, chained, List.getElem?_take, hget]
      by_cases hjL : j < L - n * i
      · rw [if_pos hjL, if_pos (by omega)]
        rfl
      · rw [if_neg hjL, if_neg (by omega)]
    · rw [if_neg hj, List.getElem?_eq_none (by omega)]
      split <;> rfl
  have hsucc : n * (i + 1) = n * i + n := by rw [Nat.mul_add, Nat.mul_one]
  rw [← hblock, hsucc, ← List.drop_drop, List.take_append_drop]

/-- The first byte of each block taken. -/
theorem getD_chained (hn : 0 < n) (step : ℕ → Bytes → Vector UInt8 n) {L i : ℕ}
    (h : n * i < L) : (chained step L).getD (n * i) 0 = (chain step (i + 1)).getD 0 0 := by
  have hi : i < (L + n - 1) / n := by
    have hle := le_mul_blocks hn L
    exact Nat.lt_of_mul_lt_mul_left (lt_of_lt_of_le h hle)
  have hget := getElem?_flatMap_const (length_chain step) hn (List.range ((L + n - 1) / n)) i
  rw [Nat.add_zero, List.getElem?_range hi] at hget
  rw [chained, List.getD_eq_getElem?_getD, List.getD_eq_getElem?_getD,
    List.getElem?_take_of_lt h, hget]
  rfl

/-- Byte `j` of what is taken of a chain. -/
theorem getElem?_chained (hn : 0 < n) (step : ℕ → Bytes → Vector UInt8 n) {L j : ℕ} (h : j < L) :
    (chained step L)[j]? = (chain step (j / n + 1))[j % n]? := by
  have hi : j / n < (L + n - 1) / n := by
    refine Nat.lt_of_mul_lt_mul_left (lt_of_le_of_lt (Nat.mul_div_le j n) ?_)
    exact lt_of_lt_of_le h (le_mul_blocks hn L)
  have hget := getElem?_flatMap_const (length_chain step) (Nat.mod_lt j hn)
    (List.range ((L + n - 1) / n)) (j / n)
  rw [Nat.div_add_mod, List.getElem?_range hi] at hget
  rw [chained, List.getElem?_take_of_lt h, hget]
  rfl

/-- **What is taken of a chain is a prefix of what more is taken of it.** -/
theorem chained_prefix (hn : 0 < n) (step : ℕ → Bytes → Vector UInt8 n) {L L' : ℕ}
    (h : L ≤ L') : chained step L <+: chained step L' := by
  have htake : (chained step L').take L = chained step L := by
    refine List.ext_getElem? fun j => ?_
    rw [List.getElem?_take]
    by_cases hj : j < L
    · rw [if_pos hj, getElem?_chained hn step hj, getElem?_chained hn step (by omega)]
    · rw [if_neg hj, List.getElem?_eq_none (by rw [length_chained hn]; omega)]
  rw [← htake]
  exact List.take_prefix L _

end

/-! ## 2. HMAC and HKDF -/

section

variable {n : ℕ} (B : ℕ) (H : Bytes → Vector UInt8 n)

/-- RFC 2104: a key longer than a block is hashed, then padded with zeros to a block. -/
def blockKey (key : Bytes) : Bytes :=
  let k := if key.length > B then (H key).toList else key
  k ++ List.replicate (B - k.length) 0

/-- RFC 2104: HMAC. -/
def hmac (key text : Bytes) : Vector UInt8 n :=
  let k := blockKey B H key
  H (k.map (· ^^^ 0x5c) ++ (H (k.map (· ^^^ 0x36) ++ text)).toList)

/-- RFC 5869 §2.2: without a salt, a string of `n` zeros is used. -/
def extract (salt : Option Bytes) (ikm : Bytes) : Vector UInt8 n :=
  hmac B H (salt.getD (List.replicate n 0)) ikm

/-- RFC 5869 §2.3: block `T(i + 1)` from block `T(i)`. -/
def expandStep (prk info : Bytes) (i : ℕ) (t : Bytes) : Vector UInt8 n :=
  hmac B H prk (t ++ info ++ [UInt8.ofNat (i + 1)])

/-- RFC 5869 §2.3: the first `L` bytes of `T(1) | T(2) | ...`. -/
def expand (prk info : Bytes) (L : ℕ) : Option Bytes :=
  if L ≤ 255 * n then some (chained (expandStep B H prk info) L) else none

/-- RFC 8446 §7.1: the structure `HkdfLabel`, whose fields bound the lengths from above.  Its label
has at least 7 bytes there, so that an empty `label`, which is encoded here, is none of the
RFC's. -/
def hkdfLabel (length : ℕ) (label context : Bytes) : Option Bytes :=
  let full := ascii "tls13 " ++ label
  if length < 2 ^ 16 ∧ full.length < 2 ^ 8 ∧ context.length < 2 ^ 8 then
    some (beBytes 2 length ++ [UInt8.ofNat full.length] ++ full ++
      [UInt8.ofNat context.length] ++ context)
  else none

/-- RFC 8446 §7.1: `HKDF-Expand-Label`. -/
def expandLabel (secret label context : Bytes) (length : ℕ) : Option Bytes :=
  (hkdfLabel length label context).bind fun info => expand B H secret info length

/-- RFC 8446 §7.1: `Derive-Secret` on the hash of its messages. -/
def deriveSecret (secret label transcriptHash : Bytes) : Option Bytes :=
  expandLabel B H secret label transcriptHash n

/-- RFC 8446 §7.1: the secret the key schedule starts from. -/
def earlySecret (psk : Option Bytes) : Bytes :=
  (extract B H none (psk.getD (List.replicate n 0))).toList

/-- RFC 8446 §7.1: `Derive-Secret(., "derived", "")` as the salt of the next extraction. -/
def nextSecret (secret ikm : Bytes) : Option Bytes :=
  (deriveSecret B H secret (ascii "derived") (H []).toList).map fun salt =>
    (extract B H (some salt) ikm).toList

/-- RFC 8446 §7.1: the handshake secret. -/
def handshakeSecret (early ecdhe : Bytes) : Option Bytes := nextSecret B H early ecdhe

/-- RFC 8446 §7.1: the master secret. -/
def masterSecret (handshake : Bytes) : Option Bytes :=
  nextSecret B H handshake (List.replicate n 0)

/-- RFC 8446 §7.3: the key and the iv of a traffic secret, the iv after the key. -/
def trafficKeyIv (secret : Bytes) (keyLength ivLength : ℕ) : Option Bytes :=
  (expandLabel B H secret (ascii "key") [] keyLength).bind fun key =>
    (expandLabel B H secret (ascii "iv") [] ivLength).map fun iv => key ++ iv

/-- RFC 8446 §4.4.4: the finished key of a base key. -/
def finishedKey (secret : Bytes) : Option Bytes :=
  expandLabel B H secret (ascii "finished") [] n

end

/-- **The structure `HkdfLabel` determines its fields.**  The two lengths are read where they
stand, and each says where the next part begins. -/
theorem hkdfLabel_inj {length length' : ℕ} {label label' context context' info : Bytes}
    (h : hkdfLabel length label context = some info)
    (h' : hkdfLabel length' label' context' = some info) :
    length = length' ∧ label = label' ∧ context = context' := by
  simp only [hkdfLabel] at h h'
  split at h
  · split at h'
    · rename_i hfit hfit'
      cases h
      have heq := Option.some.inj h'
      simp only [List.append_assoc] at heq
      obtain ⟨hlength, heq⟩ := List.append_inj heq (by simp only [length_beBytes])
      obtain ⟨hlabellen, heq⟩ := List.append_inj heq rfl
      have hlabellen' : (ascii "tls13 " ++ label').length = (ascii "tls13 " ++ label).length := by
        have hb := congrArg UInt8.toNat (List.singleton_injective hlabellen)
        simp only [UInt8.toNat_ofNat', Nat.reducePow] at hb
        omega
      simp only [List.append_cancel_left_eq] at heq
      rw [List.length_append, List.length_append] at hlabellen'
      obtain ⟨hlabel, heq⟩ := List.append_inj heq (by omega)
      obtain ⟨-, hcontext⟩ := List.append_inj heq rfl
      exact ⟨(beBytes_inj (by omega) (by omega) hlength).symm, hlabel.symm, hcontext.symm⟩
    · cases h'
  · cases h

end Hkdf
end Glossh
