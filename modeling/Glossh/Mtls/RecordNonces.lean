/-
# Record nonces do not collide

`build_nonce` masks the last eight bytes of the static iv with the bytes of the sequence number,
the lowest at the end.  That is the nonce of RFC 8446 §5.3, and under one iv it is another one
for every 64-bit sequence number (`buildNonce_unique`).

What this is needed for is the keystream.  A call of `glo_record_seal` takes the block of one
ChaCha20 state for the one-time key and a run of blocks for the payload (`gloRecordSeal_blocks`),
and a state is determined by nonce and block counter.  So over any list of calls under one key
and one iv, whatever their contents, a state comes up twice exactly when a sequence number does
(`nodup_flatMap_sealStates_iff`).
-/
import Glossh.Mtls.Counters
import Glossh.Mtls.Record

namespace Glossh.Mtls

open Bytes Rfc8439 Rfc8446

/-! ## 1. The nonce -/

theorem toList_buildNonce (iv : Vector UInt8 12) (seq : UInt64) :
    (buildNonce iv seq).toList =
      List.zipWith (· ^^^ ·) iv.toList (List.replicate 4 0 ++ beBytes 8 seq.toNat) := by
  rw [buildNonce_eq, toList_recordNonce, paddedSeq]

theorem buildNonce_injective (iv : Vector UInt8 12) : Function.Injective (buildNonce iv) := by
  intro s t h
  rw [buildNonce_eq, buildNonce_eq] at h
  exact UInt64.toNat_inj.mp (recordNonce_inj s.toNat_lt t.toNat_lt h)

/-- **The nonces are those of RFC 8446 §5.3, and each sequence number has its own.** -/
theorem buildNonce_unique (iv : Vector UInt8 12) (s t : UInt64) :
    (buildNonce iv s).toList =
        List.zipWith (· ^^^ ·) iv.toList (List.replicate 4 0 ++ beBytes 8 s.toNat) ∧
      (buildNonce iv s = buildNonce iv t ↔ s = t) :=
  ⟨toList_buildNonce iv s, (buildNonce_injective iv).eq_iff⟩

/-- The highest byte of the sequence number meets byte 4 of the iv. -/
example : buildNonce (Vector.replicate 12 0) 0x0102030405060708 =
    #v[0, 0, 0, 0, 1, 2, 3, 4, 5, 6, 7, 8] := by decide

/-! ## 2. The blocks of a call -/

/-- A call that `glo_record_seal` does not refuse: what differs from record to record. -/
structure RecordCall where
  content : Bytes
  contentType : UInt8
  seq : UInt64
  fits : content.length + 17 ≤ 0xffff

/-- The states whose blocks `glo_record_seal` takes: that of the one-time key, and those of the
payload. -/
def gloRecordSealStates (key : Vector UInt8 32) (iv : Vector UInt8 12) (call : RecordCall) :
    List (Vector UInt32 16) × List (Vector UInt32 16) :=
  let nonce := buildNonce iv call.seq
  let counters := gloAeadSealCounters (sizeT (call.content.length + 1)) key nonce
  (counters.1.map (gloChacha20State key nonce), counters.2.map (gloChacha20State key nonce))

/-- All states of a call, that of the one-time key first. -/
def sealStates (key : Vector UInt8 32) (iv : Vector UInt8 12) (call : RecordCall) :
    List (Vector UInt32 16) :=
  (gloRecordSealStates key iv call).1 ++ (gloRecordSealStates key iv call).2

section

variable (key : Vector UInt8 32) (iv : Vector UInt8 12)

/-- **A record is made from the blocks of its states** and from nothing else that depends on the
key. -/
theorem gloRecordSeal_blocks (poly : Poly1305) (g : ℕ → UInt8) (call : RecordCall) :
    let states := gloRecordSealStates key iv call
    let hdr := header (call.content.length + 17)
    let otk := toVector 32 ((states.1.flatMap chacha20Block).take 32)
    let payload := states.2.flatMap chacha20Block
    let ct := xorWith (fun i => payload.getD i 0) (call.content ++ [call.contentType])
    gloRecordSeal poly (some g) true call.content call.contentType key iv call.seq =
      some { rc := 0
             written := hdr ++ ct ++ (poly (macData hdr ct) otk).toList
             outlen := some (call.content.length + 22) } := by
  have hfits := call.fits
  have hlen : sizeT (call.content.length + 1) = (call.content ++ [call.contentType]).length := by
    rw [sizeT, Nat.mod_eq_of_lt (by omega), List.length_append, List.length_singleton]
  obtain ⟨hotk, hct⟩ := gloAeadSeal_counters poly true (call.content ++ [call.contentType])
    (header (call.content.length + 17)) key (buildNonce iv call.seq)
  rw [blocksAt, otkOf_eq] at hotk
  rw [gloAeadSeal_eq] at hct
  simp only [blocksAt] at hct
  simp only [gloRecordSealStates, List.flatMap_map, hlen]
  rw [← hotk, ← hct, toVector_toList, gloRecordSeal_allocated poly key iv call.seq g _ _ hfits,
    buildNonce_eq]
  rfl

theorem gloChacha20State_inj {nonce nonce' : Vector UInt8 12} {c c' : UInt32} :
    gloChacha20State key nonce c = gloChacha20State key nonce' c' ↔ c = c' ∧ nonce = nonce' := by
  rw [gloChacha20State_eq, gloChacha20State_eq, initState_inj]

/-- The states of a call: its nonce with distinct block counters, 0 among them. -/
theorem sealStates_eq_map (call : RecordCall) :
    ∃ cs : List UInt32, (0 :: cs).Nodup ∧
      sealStates key iv call = (0 :: cs).map (gloChacha20State key (buildNonce iv call.seq)) := by
  have hlt : sizeT (call.content.length + 1) < 2 ^ 32 := Nat.mod_lt _ (by decide)
  obtain ⟨hone, hrun, hzero⟩ := gloAeadSealCounters_separate hlt key (buildNonce iv call.seq)
  refine ⟨_, List.nodup_cons.mpr ⟨hzero, hrun⟩, ?_⟩
  simp only [sealStates, gloRecordSealStates, hone]
  rfl

/-- Within one call no state comes up twice. -/
theorem nodup_sealStates (call : RecordCall) : (sealStates key iv call).Nodup := by
  obtain ⟨cs, hcs, hmap⟩ := sealStates_eq_map key iv call
  rw [hmap]
  refine hcs.map ?_
  intro b c h
  exact ((gloChacha20State_inj key).mp h).1

/-! ## 3. Runs of calls -/

/-- Two calls share no state exactly when their sequence numbers differ. -/
theorem disjoint_sealStates_iff (a b : RecordCall) :
    List.Disjoint (sealStates key iv a) (sealStates key iv b) ↔ a.seq ≠ b.seq := by
  obtain ⟨cs, -, ha⟩ := sealStates_eq_map key iv a
  obtain ⟨ds, -, hb⟩ := sealStates_eq_map key iv b
  rw [ha, hb]
  constructor
  · -- with one sequence number the two calls have the block of the one-time key in common
    intro h hseq
    rw [hseq] at h
    exact h List.mem_cons_self List.mem_cons_self
  · intro hne state hsa hsb
    obtain ⟨c, -, rfl⟩ := List.mem_map.mp hsa
    obtain ⟨d, -, hd⟩ := List.mem_map.mp hsb
    exact hne (buildNonce_injective iv ((gloChacha20State_inj key).mp hd).2.symm)

/-- **Over a list of calls no state comes up twice exactly when no sequence number does.** -/
theorem nodup_flatMap_sealStates_iff (calls : List RecordCall) :
    (calls.flatMap (sealStates key iv)).Nodup ↔ (calls.map RecordCall.seq).Nodup := by
  have hpair : List.Pairwise (Function.onFun List.Disjoint (sealStates key iv)) calls ↔
      (calls.map RecordCall.seq).Nodup := by
    rw [List.Nodup, List.pairwise_map]
    exact List.Pairwise.iff fun {a b} => disjoint_sealStates_iff key iv a b
  rw [List.nodup_flatMap, hpair]
  exact and_iff_right fun call _ => nodup_sealStates key iv call

end

end Glossh.Mtls
