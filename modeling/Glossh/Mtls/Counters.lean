/-
# The block counters of `glo_chacha20_xor`

The loop of `glo_chacha20_xor` counts `state[12]` up by one for each block.  This module says
what follows for its output: byte `i` is masked by byte `i % 64` of the block whose counter is
`i / 64` ahead (`getD_gloChacha20Xor`), so a message may be cut at any multiple of 64
(`xorPieces_eq`) and masking twice restores it.

The counters the calls of `chacha20_block` find (`gloChacha20XorCounters`) are a run of successive
words, and a run shorter than `2 ^ 32` repeats none; `glo_aead_seal` starts its
payload at counter 1 and takes the Poly1305 key from counter 0, which the run never reaches.
-/
import Glossh.Mtls.Aead
import Mathlib.Data.List.Nodup

namespace Glossh.Mtls

open Bytes Rfc8439

/-! ## 1. Byte by byte -/

section

variable (key : Vector UInt8 32) (nonce : Vector UInt8 12)

@[simp] theorem length_gloChacha20Xor (inp : Option Bytes) (len : ℕ) (counter : UInt32) :
    (gloChacha20Xor inp len key nonce counter).length = len := by
  rw [gloChacha20Xor_eq, length_xorWith, length_inBytes]

/-- Byte `i` of the output. -/
theorem getD_gloChacha20Xor (inp : Option Bytes) {len i : ℕ} (h : i < len) (counter : UInt32) :
    (gloChacha20Xor inp len key nonce counter).getD i 0 =
      inByte inp i ^^^
        (chacha20Block (gloChacha20State key nonce (counter + UInt32.ofNat (i / 64)))).getD
          (i % 64) 0 := by
  have hlen : i < (inBytes inp len).length := by rwa [length_inBytes]
  rw [gloChacha20Xor_eq, List.getD_eq_getElem _ _ (by rwa [length_xorWith]),
    getElem_xorWith _ _ _ _ hlen, keystream, block, chacha20Block_eq, gloChacha20State_eq]
  simp [inBytes]

/-! ## 2. Messages in pieces -/

/-- A counter advanced by `b` blocks moves the keystream on by `64 * b` bytes. -/
theorem keystream_add (counter : UInt32) (b : ℕ) :
    keystream key (counter + UInt32.ofNat b) nonce =
      advance (keystream key counter nonce) (64 * b) := by
  funext i
  have hdiv : (64 * b + i) / 64 = b + i / 64 := by omega
  have hmod : (64 * b + i) % 64 = i % 64 := by omega
  simp only [keystream, advance, hdiv, hmod, UInt32.ofNat_add, UInt32.add_assoc]

/-- A message processed in pieces, each but the last of as many whole blocks as the list says,
with the counter advanced from piece to piece. -/
def xorPieces (last : ℕ) : List ℕ → Option Bytes → UInt32 → Bytes
  | [], inp, counter => gloChacha20Xor inp last key nonce counter
  | b :: bs, inp, counter =>
    gloChacha20Xor inp (64 * b) key nonce counter ++
      xorPieces last bs (inp.map (List.drop (64 * b))) (counter + UInt32.ofNat b)

/-- **The pieces make up the message processed whole.** -/
theorem xorPieces_eq (last : ℕ) (bs : List ℕ) (inp : Option Bytes) (counter : UInt32) :
    xorPieces key nonce last bs inp counter =
      gloChacha20Xor inp (64 * bs.sum + last) key nonce counter := by
  induction bs generalizing inp counter with
  | nil => rw [xorPieces, List.sum_nil, Nat.mul_zero, Nat.zero_add]
  | cons b bs ih =>
    have hsum : 64 * (b :: bs).sum + last = 64 * b + (64 * bs.sum + last) := by
      rw [List.sum_cons]
      omega
    rw [xorPieces, ih, hsum, gloChacha20Xor_eq, gloChacha20Xor_eq, gloChacha20Xor_eq,
      inBytes_add inp (64 * b), xorWith_append, length_inBytes, keystream_add]

/-- Masking twice restores the input. -/
theorem gloChacha20Xor_twice (inp : Option Bytes) (len : ℕ) (counter : UInt32) :
    gloChacha20Xor (some (gloChacha20Xor inp len key nonce counter)) len key nonce counter =
      inBytes inp len := by
  have hin : inBytes (some (gloChacha20Xor inp len key nonce counter)) len =
      gloChacha20Xor inp len key nonce counter := by
    have hself := inBytes_some (gloChacha20Xor inp len key nonce counter)
    rwa [length_gloChacha20Xor] at hself
  rw [gloChacha20Xor_eq, hin, gloChacha20Xor_eq, xorWith_xorWith]

end

/-! ## 3. The counters -/

/-- A run of at most `2 ^ 32` successive words repeats none. -/
theorem nodup_run (counter : UInt32) {k : ℕ} (h : k ≤ 2 ^ 32) :
    ((List.range k).map fun i => counter + UInt32.ofNat i).Nodup := by
  refine List.Nodup.map_on (fun i hi j hj hij => ?_) List.nodup_range
  have hi' := List.mem_range.mp hi
  have hj' := List.mem_range.mp hj
  have heq := congrArg UInt32.toNat ((UInt32.add_right_inj counter).mp hij)
  simp only [UInt32.toNat_ofNat'] at heq
  omega

/-- The counters of the blocks that `glo_aead_seal` computes: those of the one-time key, and those
of the payload. -/
def gloAeadSealCounters (ptlen : ℕ) (key : Vector UInt8 32) (nonce : Vector UInt8 12) :
    List UInt32 × List UInt32 :=
  (gloChacha20XorCounters 32 (gloChacha20State key nonce 0),
    gloChacha20XorCounters ptlen (gloChacha20State key nonce 1))

/-- **The one-time key has block 0 for itself.**  A payload that a 32-bit `size_t` counts has
at most `2 ^ 26` blocks. -/
theorem gloAeadSealCounters_separate {ptlen : ℕ} (h : ptlen < 2 ^ 32) (key : Vector UInt8 32)
    (nonce : Vector UInt8 12) :
    (gloAeadSealCounters ptlen key nonce).1 = [0] ∧
      (gloAeadSealCounters ptlen key nonce).2.Nodup ∧
      0 ∉ (gloAeadSealCounters ptlen key nonce).2 := by
  have hstate (c : UInt32) : (gloChacha20State key nonce c)[12] = c := rfl
  simp only [gloAeadSealCounters, gloChacha20XorCounters_eq, hstate]
  refine ⟨rfl, nodup_run 1 (by omega), ?_⟩
  intro hmem
  obtain ⟨i, hi, hzero⟩ := List.mem_map.mp hmem
  have hi' := List.mem_range.mp hi
  have heq := congrArg UInt32.toNat hzero
  rw [UInt32.toNat_add, UInt32.toNat_ofNat'] at heq
  have h1 : (1 : UInt32).toNat = 1 := rfl
  have h0 : (0 : UInt32).toNat = 0 := rfl
  omega

/-- The blocks of some counters, one after the other. -/
def blocksAt (key : Vector UInt8 32) (nonce : Vector UInt8 12) (cs : List UInt32) : Bytes :=
  cs.flatMap fun c => chacha20Block (gloChacha20State key nonce c)

/-- `glo_chacha20_xor` masks its input with the blocks of its counters. -/
theorem gloChacha20Xor_counters (inp : Option Bytes) (len : ℕ) (key : Vector UInt8 32)
    (nonce : Vector UInt8 12) (counter : UInt32) :
    gloChacha20Xor inp len key nonce counter =
      xorWith (fun i => (blocksAt key nonce
        (gloChacha20XorCounters len (gloChacha20State key nonce counter))).getD i 0)
        (inBytes inp len) := by
  have hset (c : UInt32) :
      (gloChacha20State key nonce counter).set 12 c = gloChacha20State key nonce c := rfl
  rw [gloChacha20Xor, gloChacha20XorLoop_counters]
  simp only [hset]
  rfl

/-- What `glo_aead_seal` computes from the blocks of its counters. -/
theorem gloAeadSeal_counters (poly : Poly1305) (callocOk : Bool) (pt aad : Bytes)
    (key : Vector UInt8 32) (nonce : Vector UInt8 12) :
    (otkOf key nonce).toList =
        (blocksAt key nonce (gloAeadSealCounters pt.length key nonce).1).take 32 ∧
      (gloAeadSeal poly callocOk pt aad key nonce).ct =
        xorWith (fun i =>
          (blocksAt key nonce (gloAeadSealCounters pt.length key nonce).2).getD i 0) pt := by
  constructor
  · have hone : (gloAeadSealCounters pt.length key nonce).1 = [0] := by
      simp only [gloAeadSealCounters, gloChacha20XorCounters_eq]
      rfl
    have hlen : (blocksAt key nonce [0]).length = 64 := by
      rw [blocksAt, List.flatMap_singleton, chacha20Block_eq, length_blockOf]
    rw [hone]
    refine List.ext_getElem (by simp [hlen]) ?_
    intro i h1 h2
    have hi : i < 32 := by simpa using h1
    have hdiv : i / 64 = 0 := by omega
    have hmod : i % 64 = i := by omega
    simp only [otkOf, Vector.getElem_toList, Vector.getElem_ofFn, List.getElem_take]
    rw [getD_gloChacha20Xor key nonce none hi, hdiv, hmod, ← List.getD_eq_getElem _ 0 (by omega),
      blocksAt, List.flatMap_singleton]
    exact UInt8.zero_xor
  · have hct : (gloAeadSeal poly callocOk pt aad key nonce).ct =
        gloChacha20Xor (some pt) pt.length key nonce 1 := by
      simp only [gloAeadSeal]
      split <;> rfl
    rw [hct, gloChacha20Xor_counters, inBytes_some]
    rfl

/-- **The streaming law and the separation of counters.**  Byte by byte the output is the input
masked by the block `i / 64` ahead; a message processed in pieces is the message processed whole;
masking twice restores the input; and sealing, which uses the blocks of `gloAeadSealCounters` and
no others, masks no two blocks of a payload alike and none with the block of the one-time key. -/
theorem gloChacha20Xor_streaming (key : Vector UInt8 32) (nonce : Vector UInt8 12) :
    (∀ inp len counter, (gloChacha20Xor inp len key nonce counter).length = len ∧
      ∀ i, i < len → (gloChacha20Xor inp len key nonce counter).getD i 0 =
        inByte inp i ^^^
          (chacha20Block (gloChacha20State key nonce (counter + UInt32.ofNat (i / 64)))).getD
            (i % 64) 0) ∧
    (∀ last bs inp counter, xorPieces key nonce last bs inp counter =
      gloChacha20Xor inp (64 * bs.sum + last) key nonce counter) ∧
    (∀ inp len counter,
      gloChacha20Xor (some (gloChacha20Xor inp len key nonce counter)) len key nonce counter =
        inBytes inp len) ∧
    (∀ poly callocOk pt aad,
      (otkOf key nonce).toList =
          (blocksAt key nonce (gloAeadSealCounters pt.length key nonce).1).take 32 ∧
        (gloAeadSeal poly callocOk pt aad key nonce).ct =
          xorWith (fun i =>
            (blocksAt key nonce (gloAeadSealCounters pt.length key nonce).2).getD i 0) pt) ∧
    (∀ ptlen, ptlen < 2 ^ 32 →
      (gloAeadSealCounters ptlen key nonce).1 = [0] ∧
        (gloAeadSealCounters ptlen key nonce).2.Nodup ∧
        0 ∉ (gloAeadSealCounters ptlen key nonce).2) := by
  refine ⟨fun inp len counter => ⟨length_gloChacha20Xor key nonce inp len counter, ?_⟩,
    xorPieces_eq key nonce, gloChacha20Xor_twice key nonce, ?_, ?_⟩
  · intro i hi
    exact getD_gloChacha20Xor key nonce inp hi counter
  · intro poly callocOk pt aad
    exact gloAeadSeal_counters poly callocOk pt aad key nonce
  · intro ptlen h
    exact gloAeadSealCounters_separate h key nonce

end Glossh.Mtls
