/-
# The buffers of `glo_hkdf_expand`

`glo_hkdf_expand` with its memory: the work buffer `buf`, whose size is a sum in a 32-bit
`size_t`, and the output `okm`, an object of exactly `okmlen` bytes.  Every store and every read is
checked against the object it goes to, and a call that left one has the value `none`.  The HMAC
is a parameter, and the messages it was called on are recorded.

`Expanding` says where the loop stands after `i` blocks; one turn takes it from `i` to `i + 1`
(`Expanding.turn`), so the call ends, writes the chain of RFC 5869, and never leaves an object
(`gloHkdfExpandAt_eq`).
-/
import Glossh.Mtls.Hkdf
import Glossh.Mtls.Record

namespace Glossh.Mtls

open Bytes Hkdf

/-! ## 1. The call -/

/-- The variables of `glo_hkdf_expand`, and the messages that `glo_hmac_sha256` was called on. -/
structure ExpandState where
  okm : Bytes
  buf : Bytes
  t : Vector UInt8 32
  tlen : ℕ
  done : ℕ
  counter : UInt8
  calls : List Bytes

section

variable (mac : Bytes → Bytes → Vector UInt8 32) (prk : Vector UInt8 32) (info : Bytes)

/-- The first half of a turn of the loop of `glo_hkdf_expand`: the buffer after it, and the
message in it. -/
def gloHkdfExpandMessage (s : ExpandState) : Option (Bytes × Bytes) := do
  let bl := 0
  let buf ← (if s.tlen ≠ 0 then store? s.buf 0 (s.t.toList.take s.tlen) else some s.buf)
  let bl := if s.tlen ≠ 0 then sizeT (bl + s.tlen) else bl
  let buf ← (if info.length ≠ 0 then store? buf bl info else some buf)
  let bl := if info.length ≠ 0 then sizeT (bl + info.length) else bl
  let buf ← store? buf bl [s.counter]
  let bl := sizeT (bl + 1)
  let msg ← slice? buf 0 bl
  return (buf, msg)

/-- One turn of the loop of `glo_hkdf_expand`. -/
def gloHkdfExpandTurn (s : ExpandState) : Option ExpandState := do
  let (buf, msg) ← gloHkdfExpandMessage info s
  let t := mac prk.toList msg
  let n := if s.okm.length - s.done < 32 then s.okm.length - s.done else 32
  let okm ← store? s.okm s.done (t.toList.take n)
  return {
    okm := okm, buf := buf, t := t, tlen := 32, done := s.done + n,
    counter := s.counter + 1, calls := s.calls ++ [msg] }

/-- A turn keeps the output's length and gets on with it. -/
theorem gloHkdfExpandTurn_done {s s' : ExpandState}
    (h : gloHkdfExpandTurn mac prk info s = some s') (hlt : s.done < s.okm.length) :
    s'.okm.length - s'.done < s.okm.length - s.done := by
  obtain ⟨⟨buf, msg⟩, -, h⟩ := Option.bind_eq_some_iff.mp h
  obtain ⟨okm, hokm, h⟩ := Option.bind_eq_some_iff.mp h
  cases h
  have hlen := length_store? hokm
  simp only [hlen]
  split <;> omega

/-- The loop of `glo_hkdf_expand`. -/
def gloHkdfExpandLoopAt (s : ExpandState) : Option ExpandState :=
  if hlt : s.done < s.okm.length then
    match hturn : gloHkdfExpandTurn mac prk info s with
    | some s' =>
      have := gloHkdfExpandTurn_done mac prk info hturn hlt
      gloHkdfExpandLoopAt s'
    | none => none
  else some s
termination_by s.okm.length - s.done

/-- What a call returns, the output after it, and the messages the HMAC was called on. -/
structure ExpandResult where
  rc : Int
  okm : Bytes
  calls : List Bytes

/-- `glo_hkdf_expand` on an output that holds `okm` before the call.  The block that `malloc`
returns holds `g`, and the array `t` holds `t`. -/
def gloHkdfExpandAt (g : ℕ → UInt8) (t : Vector UInt8 32) (okm : Bytes) : Option ExpandResult :=
  if okm.length > 255 * 32 then some { rc := -1, okm := okm, calls := [] }
  else do
    let size := sizeT (sizeT (32 + info.length) + 1)
    let buf := (List.range size).map g
    let s ← gloHkdfExpandLoopAt mac prk info
      { okm := okm, buf := buf, t := t, tlen := 0, done := 0, counter := 1, calls := [] }
    let _ ← store? s.buf 0 (List.replicate size 0)
    return { rc := 0, okm := s.okm, calls := s.calls }

/-! ## 2. A turn computes a block -/

/-- Block `i + 1` of RFC 5869 from block `i`. -/
def macStep (i : ℕ) (t : Bytes) : Vector UInt8 32 :=
  mac prk.toList (t ++ info ++ [UInt8.ofNat (i + 1)])

/-- Where the loop stands after `i` blocks. -/
structure Expanding (L i : ℕ) (s : ExpandState) : Prop where
  length_okm : s.okm.length = L
  length_buf : s.buf.length = 33 + info.length
  done_eq : s.done = min (32 * i) L
  tlen_eq : s.tlen = if i = 0 then 0 else 32
  block_eq : s.t.toList.take s.tlen = chain (macStep mac prk info) i
  counter_eq : s.counter = UInt8.ofNat (i + 1)
  okm_eq : s.okm.take s.done = (chained (macStep mac prk info) L).take s.done
  calls_eq : s.calls = (List.range i).map fun i =>
    chain (macStep mac prk info) i ++ info ++ [UInt8.ofNat (i + 1)]

/-- The message of a turn: the block before, `info`, and the counter, one behind the other. -/
theorem gloHkdfExpandMessage_eq {s : ExpandState} (hbuf : s.buf.length = 33 + info.length)
    (htlen : s.tlen ≤ 32) (hinfo : info.length < 2 ^ 32 - 1 - 96) :
    ∃ buf, gloHkdfExpandMessage info s =
        some (buf, s.t.toList.take s.tlen ++ info ++ [s.counter]) ∧
      buf.length = 33 + info.length := by
  have hT : (s.t.toList.take s.tlen).length = s.tlen := by simp [htlen]
  unfold gloHkdfExpandMessage
  generalize s.t.toList.take s.tlen = T at hT ⊢
  have hTinfo : (T ++ info).length = s.tlen + info.length := by rw [List.length_append, hT]
  have hmsg : (T ++ info ++ [s.counter]).length = s.tlen + info.length + 1 := by
    rw [List.length_append, hTinfo, List.length_singleton]
  obtain ⟨buf1, h1, hlen1, hpre1⟩ :=
    store?_after_prefix 0 T (List.nil_prefix : [] <+: s.buf) rfl (by omega)
  obtain ⟨buf2, h2, hlen2, hpre2⟩ := store?_after_prefix s.tlen info hpre1 hT (by omega)
  obtain ⟨buf3, h3, hlen3, hpre3⟩ :=
    store?_after_prefix (s.tlen + info.length) [s.counter] hpre2 hTinfo
      (by rw [List.length_singleton]; omega)
  have hguard1 : (if s.tlen ≠ 0 then store? s.buf 0 T else some s.buf) = some buf1 := by
    rw [← hT, ite_length_store? T (Nat.zero_le _)]
    exact h1
  have hguard2 : (if info.length ≠ 0 then store? buf1 s.tlen info else some buf1) = some buf2 := by
    rw [ite_length_store? info (by omega)]
    exact h2
  have hbl : (if s.tlen ≠ 0 then sizeT (0 + s.tlen) else 0) = s.tlen := by
    simp only [sizeT]
    split <;> omega
  have hbl' : (if info.length ≠ 0 then sizeT (s.tlen + info.length) else s.tlen) =
      s.tlen + info.length := by
    simp only [sizeT]
    split <;> omega
  have hbl1 : sizeT (s.tlen + info.length + 1) = s.tlen + info.length + 1 :=
    Nat.mod_eq_of_lt (by omega)
  refine ⟨buf3, ?_, by omega⟩
  simp only [hguard1, hguard2, hbl, hbl', hbl1, h3, slice?_of_prefix hpre3 hmsg,
    Option.bind_eq_bind, Option.bind_some, Option.pure_def]
  rfl

/-- What a turn appends to the output is what the chain goes on with. -/
theorem take_chained_succ (step : ℕ → Bytes → Vector UInt8 32) {L i n : ℕ} (hi : 32 * i < L)
    (hn : n = if L - 32 * i < 32 then L - 32 * i else 32) :
    (chained step L).take (32 * i + n) =
      (chained step L).take (32 * i) ++ (chain step (i + 1)).take n := by
  have hlen : (chain step (i + 1)).length = 32 := length_chain step i
  have hcut : (chain step (i + 1)).take (L - 32 * i) = (chain step (i + 1)).take n := by
    rw [hn]
    split
    · rfl
    · rw [List.take_of_length_le (by omega), List.take_of_length_le (by omega)]
  have hcutlen : ((chain step (i + 1)).take n).length = n := by
    rw [List.length_take, hlen, hn]
    split <;> omega
  rw [List.take_add, drop_chained (by decide) step hi, hcut, List.take_left' hcutlen]

/-- **One turn goes on to the next block**, and no access of it leaves its object. -/
theorem Expanding.turn {L i : ℕ} {s : ExpandState} (h : Expanding mac prk info L i s)
    (hinfo : info.length < 2 ^ 32 - 1 - 96) (hlt : s.done < L) :
    ∃ s', gloHkdfExpandTurn mac prk info s = some s' ∧ Expanding mac prk info L (i + 1) s' := by
  have hdone : s.done = 32 * i := by
    have heq := h.done_eq
    omega
  have htlen : s.tlen ≤ 32 := by
    rw [h.tlen_eq]
    split <;> omega
  obtain ⟨buf, hmsg, hbuf⟩ := gloHkdfExpandMessage_eq info h.length_buf htlen hinfo
  rw [h.block_eq, h.counter_eq] at hmsg
  generalize hn : (if L - 32 * i < 32 then L - 32 * i else 32) = n
  have hstep : mac prk.toList (chain (macStep mac prk info) i ++ info ++ [UInt8.ofNat (i + 1)]) =
      macStep mac prk info i (chain (macStep mac prk info) i) := rfl
  have hchain : (macStep mac prk info i (chain (macStep mac prk info) i)).toList =
      chain (macStep mac prk info) (i + 1) := rfl
  have hblock : ((chain (macStep mac prk info) (i + 1)).take n).length = n := by
    rw [List.length_take, length_chain, ← hn]
    split <;> omega
  have hfit : s.done + ((chain (macStep mac prk info) (i + 1)).take n).length ≤ s.okm.length := by
    rw [hblock, h.length_okm, hdone, ← hn]
    split <;> omega
  have hcount : UInt8.ofNat (i + 1) + 1 = UInt8.ofNat (i + 1 + 1) := by
    rw [UInt8.ofNat_add (i + 1) 1]
    rfl
  refine ⟨{ okm := overwrite s.okm s.done ((chain (macStep mac prk info) (i + 1)).take n)
            buf := buf
            t := macStep mac prk info i (chain (macStep mac prk info) i)
            tlen := 32, done := s.done + n, counter := UInt8.ofNat (i + 1) + 1
            calls := s.calls ++
              [chain (macStep mac prk info) i ++ info ++ [UInt8.ofNat (i + 1)]] }, ?_, ?_⟩
  · simp only [gloHkdfExpandTurn, hmsg, Option.bind_eq_bind, Option.bind_some, hstep, hchain,
      h.length_okm, hdone, hn, Option.pure_def, h.counter_eq]
    rw [← hdone, store?_of_le hfit, Option.bind_some]
  · refine ⟨?_, hbuf, ?_, rfl, ?_, hcount, ?_, ?_⟩
    · rw [length_overwrite hfit, h.length_okm]
    · simp only [hdone, ← hn]
      split <;> omega
    · exact (List.take_of_length_le (by simp)).trans hchain
    · have htake := take_overwrite hfit
      rw [hblock, h.okm_eq, hdone] at htake
      simp only [hdone]
      rw [htake, take_chained_succ (macStep mac prk info) (by omega) hn.symm]
    · rw [h.calls_eq, List.range_succ, List.map_append]
      rfl

/-! ## 3. The call writes the chain of RFC 5869 -/

/-- **The loop runs to the last block.**  The induction is on the bytes still to write. -/
theorem gloHkdfExpandLoopAt_eq (L : ℕ) (hinfo : info.length < 2 ^ 32 - 1 - 96) (d : ℕ) :
    ∀ i s, L - 32 * i = d → i ≤ blocks L → Expanding mac prk info L i s →
      ∃ s', gloHkdfExpandLoopAt mac prk info s = some s' ∧
        Expanding mac prk info L (blocks L) s' := by
  induction d using Nat.strong_induction_on with
  | _ d ih =>
    intro i s hd hi h
    rw [gloHkdfExpandLoopAt]
    have hdone := h.done_eq
    by_cases hlt : 32 * i < L
    · have hlt' : s.done < s.okm.length := by
        rw [h.length_okm]
        omega
      have hsucc : i + 1 ≤ blocks L := by
        simp only [blocks]
        omega
      obtain ⟨s', hturn, h'⟩ := h.turn mac prk info hinfo (by omega)
      rw [dif_pos hlt']
      split
      · rename_i s'' hturn'
        have heq : s'' = s' := Option.some.inj (hturn'.symm.trans hturn)
        subst heq
        exact ih (L - 32 * (i + 1)) (by omega) (i + 1) s'' rfl hsucc h'
      · rename_i hnone
        rw [hturn] at hnone
        cases hnone
    · have hend : i = blocks L := by
        simp only [blocks] at hi ⊢
        omega
      rw [dif_neg (by rw [h.length_okm]; omega)]
      exact ⟨s, rfl, hend ▸ h⟩

/-- **What `glo_hkdf_expand` does**, for every block that `malloc` returns: no access leaves its
object. -/
theorem gloHkdfExpandAt_eq (hinfo : info.length < 2 ^ 32 - 1 - 96) (g : ℕ → UInt8)
    (t : Vector UInt8 32) (okm : Bytes) :
    gloHkdfExpandAt mac prk info g t okm =
      if 255 * 32 < okm.length then some { rc := -1, okm := okm, calls := [] }
      else some {
        rc := 0
        okm := chained (macStep mac prk info) okm.length
        calls := (List.range (blocks okm.length)).map fun i =>
          chain (macStep mac prk info) i ++ info ++ [UInt8.ofNat (i + 1)] } := by
  rw [gloHkdfExpandAt]
  by_cases hL : 255 * 32 < okm.length
  · rw [if_pos hL, if_pos hL]
  · have hsize : sizeT (sizeT (32 + info.length) + 1) = 33 + info.length := by
      simp only [sizeT]
      omega
    rw [if_neg hL, if_neg hL]
    simp only [hsize]
    generalize hbuf : (List.range (33 + info.length)).map g = buf
    have hbuflen : buf.length = 33 + info.length := by
      rw [← hbuf, List.length_map, List.length_range]
    have hstart : Expanding mac prk info okm.length 0
        { okm := okm, buf := buf, t := t, tlen := 0, done := 0, counter := 1, calls := [] } :=
      ⟨rfl, hbuflen, by simp, rfl, rfl, rfl, rfl, rfl⟩
    obtain ⟨s, hrun, h⟩ := gloHkdfExpandLoopAt_eq mac prk info okm.length hinfo
      (okm.length - 32 * 0) 0 _ rfl (Nat.zero_le _) hstart
    have hdone : s.done = okm.length := by
      rw [h.done_eq, blocks]
      omega
    have hokm : s.okm = chained (macStep mac prk info) okm.length := by
      have heq := h.okm_eq
      rwa [hdone, List.take_of_length_le (le_of_eq h.length_okm),
        List.take_of_length_le (le_of_eq (length_chained (by decide) _ _))] at heq
    have hclear : store? s.buf 0 (List.replicate (33 + info.length) 0) =
        some (overwrite s.buf 0 (List.replicate (33 + info.length) 0)) := by
      refine store?_of_le ?_
      rw [List.length_replicate, h.length_buf]
      omega
    simp only [hrun, hclear, Option.bind_eq_bind, Option.bind_some, Option.pure_def, hokm,
      h.calls_eq]

/-- Each message is short enough for the buffer of `glo_hmac_sha256`. -/
theorem length_call_le {L : ℕ} {msg : Bytes}
    (h : msg ∈ (List.range (blocks L)).map fun i =>
      chain (macStep mac prk info) i ++ info ++ [UInt8.ofNat (i + 1)]) :
    msg.length ≤ 33 + info.length := by
  obtain ⟨i, -, rfl⟩ := List.mem_map.mp h
  have hlen : (chain (macStep mac prk info) i).length ≤ 32 := by
    cases i with
    | zero => exact Nat.zero_le 32
    | succ i => exact le_of_eq (length_chain _ i)
  simp only [List.length_append, List.length_singleton]
  omega

end

/-- **`glo_hkdf_expand` over an HMAC is the model over a hash function**, where every allocation
succeeds. -/
theorem gloHkdfExpand_eq_at (H : Bytes → Vector UInt8 32) (prk : Vector UInt8 32) (info : Bytes)
    (hinfo : info.length < 2 ^ 32 - 1 - 96) (g : ℕ → UInt8) (t : Vector UInt8 32) (okm : Bytes) :
    ((gloHkdfExpand H okm.length prk info).run fun _ => true).1 =
      (gloHkdfExpandAt (hmac 64 H) prk info g t okm).bind fun r =>
        if r.rc = 0 then some r.okm else none := by
  have hstep : macStep (hmac 64 H) prk info = expandStep 64 H prk.toList info := rfl
  rw [gloHkdfExpand_run, gloHkdfExpandAt_eq _ prk info hinfo, hstep]
  split
  · rfl
  · have hcode := chained_codeStep H prk info (m := fun _ => true) (L := okm.length)
      fun _ _ => rfl
    exact congrArg some hcode

/-- **HKDF-Expand is RFC 5869's and prefix-consistent**, over any HMAC.  Every call returns, with
no access outside its objects; it returns 0 exactly up to 8160 bytes and writes the blocks, made
with the counter bytes 1, 2, ... up to the number of blocks; and the messages leave the sums in
`glo_hmac_sha256` unwrapped. -/
theorem gloHkdfExpandAt_rfc5869 (mac : Bytes → Bytes → Vector UInt8 32) (prk : Vector UInt8 32)
    (info : Bytes) (hinfo : info.length < 2 ^ 32 - 1 - 96) :
    (∀ g t okm, ∃ r, gloHkdfExpandAt mac prk info g t okm = some r ∧
      (r.rc = 0 ↔ okm.length ≤ 8160) ∧
      (r.rc = 0 →
        r.okm = chained (macStep mac prk info) okm.length ∧
        r.calls = (List.range (blocks okm.length)).map (fun i =>
          chain (macStep mac prk info) i ++ info ++ [UInt8.ofNat (i + 1)]) ∧
        ∀ i < blocks okm.length, (UInt8.ofNat (i + 1)).toNat = i + 1) ∧
      (r.rc ≠ 0 → r.okm = okm ∧ r.calls = []) ∧
      ∀ msg ∈ r.calls, 64 + msg.length < 2 ^ 32) ∧
    ∀ g t okm g' t' okm' r r', gloHkdfExpandAt mac prk info g t okm = some r →
      gloHkdfExpandAt mac prk info g' t' okm' = some r' → r.rc = 0 → r'.rc = 0 →
      okm.length ≤ okm'.length → r.okm <+: r'.okm := by
  have hcases : ∀ g t okm,
      (8160 < okm.length ∧
        gloHkdfExpandAt mac prk info g t okm = some { rc := -1, okm := okm, calls := [] }) ∨
      (okm.length ≤ 8160 ∧ gloHkdfExpandAt mac prk info g t okm = some {
        rc := 0
        okm := chained (macStep mac prk info) okm.length
        calls := (List.range (blocks okm.length)).map fun i =>
          chain (macStep mac prk info) i ++ info ++ [UInt8.ofNat (i + 1)] }) := by
    intro g t okm
    rw [gloHkdfExpandAt_eq mac prk info hinfo]
    by_cases hL : 255 * 32 < okm.length
    · exact Or.inl ⟨hL, if_pos hL⟩
    · exact Or.inr ⟨Nat.le_of_not_lt hL, if_neg hL⟩
  have hfail : (-1 : Int) ≠ 0 := by decide
  constructor
  · intro g t okm
    rcases hcases g t okm with ⟨hL, hrun⟩ | ⟨hL, hrun⟩
    · refine ⟨_, hrun, ⟨fun h => absurd h hfail, fun h => absurd h (by omega)⟩,
        fun h => absurd h hfail, fun _ => ⟨rfl, rfl⟩, ?_⟩
      intro msg hmsg
      cases hmsg
    · refine ⟨_, hrun, ⟨fun _ => hL, fun _ => rfl⟩, fun _ => ⟨rfl, rfl, ?_⟩,
        fun h => absurd rfl h, ?_⟩
      · intro i hi
        have hi255 : i + 1 < 256 := by
          simp only [blocks] at hi
          omega
        rw [UInt8.toNat_ofNat']
        exact Nat.mod_eq_of_lt hi255
      · intro msg hmsg
        have hle := length_call_le mac prk info hmsg
        omega
  · intro g t okm g' t' okm' r r' hr hr' h0 h0' hle
    rcases hcases g t okm with ⟨-, hrun⟩ | ⟨-, hrun⟩
    · rw [hrun] at hr
      cases hr
      exact absurd h0 hfail
    · rcases hcases g' t' okm' with ⟨-, hrun'⟩ | ⟨-, hrun'⟩
      · rw [hrun'] at hr'
        cases hr'
        exact absurd h0' hfail
      · rw [hrun] at hr
        rw [hrun'] at hr'
        cases hr
        cases hr'
        exact chained_prefix (by decide) _ hle

/-- An output of a block and ten bytes. -/
theorem gloHkdfExpandAt_rfc5869_partial :
    ∃ r, gloHkdfExpandAt (fun _ m => Vector.replicate 32 (UInt8.ofNat m.length))
        (Vector.replicate 32 7) [0xf0, 0xf1] (fun _ => 0) (Vector.replicate 32 0)
        (List.replicate 42 0) = some r ∧ r.rc = 0 := by
  obtain ⟨r, hr, h0, -⟩ := (gloHkdfExpandAt_rfc5869
    (fun _ m => Vector.replicate 32 (UInt8.ofNat m.length)) (Vector.replicate 32 7) [0xf0, 0xf1]
    (by decide)).1 (fun _ => 0) (Vector.replicate 32 0) (List.replicate 42 0)
  exact ⟨r, hr, h0.mpr (by decide)⟩

end Glossh.Mtls
