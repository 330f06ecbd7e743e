/-
# Host keys when sessions load at the same time

Runs of `port_load.c` in which sessions interleave their NVS calls in any order, all of which
succeed.

`load` checks, generates and stores two blobs without a lock.  Two sessions that both find no key
both generate, and each of the four stores may come last (`mismatch_of_race`).
`consistent_of_alone` says that this is the only way: when no session generates while another one
finds no key, every session signs with the key that belongs to its public key, and the store ends
with one generated pair.
-/
import Glossh.Ssh.Load

namespace Glossh.Ssh

/-! ## 1. The runs -/

section

variable {S : Type}

/-- Every NVS call and every generation succeeds, and the power stays on. -/
def Succeeds : Event S → Prop
  | .call _ a => a = .ok ∨ ∃ kp, a = .pair kp
  | .powerLoss => False
  | _ => True

/-- **No two sessions generate at once**: when `nvs_get_blob` reports `NOT_FOUND`, no other
session is between its own `NOT_FOUND` and its store of the secret key. -/
def GeneratesAlone (d : Device S) : Event S → Prop
  | .call s _ =>
    ∀ key p, (d.session s).call = some (key, p) →
      ∀ k, p.readsBlob = some k → d.flash.blob k = none →
        ∀ s' key' p', s' ≠ s → (d.session s').call = some (key', p') → p'.generates = false
  | _ => True

/-- The stages between `NOT_FOUND` and the store of the secret key. -/
def Stage.generates : Stage → Bool
  | generating | storingPk _ | storingSk _ => true
  | _ => false

/-- The stages between `NOT_FOUND` and the store of the public key. -/
def Stage.storesNothing : Stage → Bool
  | generating | storingPk _ => true
  | _ => false

theorem generates_of_storesNothing {st : Stage} (h : st.storesNothing = true) :
    st.generates = true := by
  cases st with
  | generating => rfl
  | storingPk kp => rfl
  | _ => cases h

theorem generates_prog (key : NvsKey) (st : Stage) :
    (st.prog key).generates = st.generates := by
  cases st <;> rfl

/-- The call a session is in, from its place in `load`. -/
def callAt (q : Option (NvsKey × Stage)) : Option (NvsKey × Load) :=
  q.map fun x => (x.1, x.2.prog x.1)

/-! ## 2. The invariant -/

/-- The invariant of runs in which no two sessions generate at once.  `place` says where in
`load` each session is. -/
structure RaceInv (f : Flash) (session : S → Session) (place : S → Option (NvsKey × Stage)) :
    Prop where
  call : ∀ s, (session s).call = callAt (place s)
  held : ∀ s a, (session s).pk = some a → f.blob .ed25519Pk = some a
  signs : ∀ s b, (session s).sk = some b → f.blob .ed25519Sk = some b
  returning : ∀ s key x, place s = some (key, .returning (some x)) → f.blob key = some x
  before : ∀ s key st, place s = some (key, st) → st.storesNothing = true →
    f.blob .ed25519Pk = none
  between : ∀ s key kp, place s = some (key, .storingSk kp) →
    f.blob .ed25519Pk = some kp.pk.toList ∧ f.blob .ed25519Sk = none
  alone : ∀ s key st s' key' st', place s = some (key, st) → st.generates = true →
    place s' = some (key', st') → st'.generates = true → s = s'
  pair : ∀ a b, f.blob .ed25519Pk = some a → f.blob .ed25519Sk = some b → Match a b
  half : ∀ a, f.blob .ed25519Pk = some a → f.blob .ed25519Sk = none →
    ∃ s key kp, place s = some (key, .storingSk kp)
  pkFirst : f.blob .ed25519Pk = none → f.blob .ed25519Sk = none

/-- An empty store, and no session. -/
theorem raceInv_boot {f : Flash} (hf : ∀ key, f.blob key = none) :
    RaceInv f (fun _ : S => .fresh) fun _ => none where
  call _ := rfl
  held _ _ h := by cases h
  signs _ _ h := by cases h
  returning _ _ _ h := by cases h
  before _ _ _ h := by cases h
  between _ _ _ h := by cases h
  alone _ _ _ _ _ _ h := by cases h
  pair a b h := by
    rw [hf] at h
    cases h
  half a h := by
    rw [hf] at h
    cases h
  pkFirst _ := hf _

/-- While a session generates, no other does. -/
theorem not_generates_of_alone {f : Flash} {session : S → Session}
    {place : S → Option (NvsKey × Stage)} (hinv : RaceInv f session place) {s s' : S}
    {key key' : NvsKey} {st st' : Stage} (hplace : place s = some (key, st))
    (hgen : st.generates = true) (hne : s' ≠ s) (hs' : place s' = some (key', st')) :
    st'.generates = false := by
  cases hgen' : st'.generates with
  | false => rfl
  | true => exact absurd (hinv.alone s' key' st' s key st hs' hgen' hplace hgen) hne

/-! ## 3. The steps -/

variable [DecidableEq S]

/-- Where a session is after `s` has moved to `q`: it is `s`, or it is where it was. -/
theorem place_cases {place : S → Option (NvsKey × Stage)} {s s' : S}
    {q x : Option (NvsKey × Stage)} (h : Function.update place s q s' = x) :
    s' = s ∧ q = x ∨ s' ≠ s ∧ place s' = x := by
  by_cases hs : s' = s
  · subst hs
    rw [Function.update_self] at h
    exact Or.inl ⟨rfl, h⟩
  · rw [Function.update_of_ne hs] at h
    exact Or.inr ⟨hs, h⟩

/-- A session that was not about to store the secret key changes, and the blobs do not. -/
theorem raceInv_update {f f' : Flash} {session : S → Session}
    {place : S → Option (NvsKey × Stage)} (hinv : RaceInv f session place)
    (hblob : f'.blob = f.blob) (s : S) (t : Session) (q : Option (NvsKey × Stage))
    (hcall : t.call = callAt q) (hpk : ∀ a, t.pk = some a → f.blob .ed25519Pk = some a)
    (hsk : ∀ b, t.sk = some b → f.blob .ed25519Sk = some b)
    (hold : ∀ key kp, place s ≠ some (key, .storingSk kp))
    (hret : ∀ key x, q = some (key, .returning (some x)) → f.blob key = some x)
    (hnew : ∀ key st, q = some (key, st) → st.generates = true →
      st.storesNothing = true ∧ f.blob .ed25519Pk = none ∧
        ∀ s' key' st', s' ≠ s → place s' = some (key', st') → st'.generates = false) :
    RaceInv f' (Function.update session s t) (Function.update place s q) := by
  refine ⟨?_, ?_, ?_, ?_, ?_, ?_, ?_, ?_, ?_, ?_⟩
  · intro s'
    by_cases hs : s' = s
    · subst hs
      simpa only [Function.update_self] using hcall
    · simpa only [Function.update_of_ne hs] using hinv.call s'
  · rw [hblob]
    exact (Function.forall_update_iff session fun _ t => ∀ a, t.pk = some a →
      f.blob .ed25519Pk = some a).mpr ⟨hpk, fun s' _ => hinv.held s'⟩
  · rw [hblob]
    exact (Function.forall_update_iff session fun _ t => ∀ b, t.sk = some b →
      f.blob .ed25519Sk = some b).mpr ⟨hsk, fun s' _ => hinv.signs s'⟩
  · rw [hblob]
    exact (Function.forall_update_iff place fun _ q => ∀ key x,
      q = some (key, .returning (some x)) → f.blob key = some x).mpr
      ⟨hret, fun s' _ => hinv.returning s'⟩
  · rw [hblob]
    refine (Function.forall_update_iff place fun _ q => ∀ key st, q = some (key, st) →
      st.storesNothing = true → f.blob .ed25519Pk = none).mpr ⟨?_, fun s' _ => hinv.before s'⟩
    intro key st hst hnothing
    exact (hnew key st hst (generates_of_storesNothing hnothing)).2.1
  · rw [hblob]
    refine (Function.forall_update_iff place fun _ q => ∀ key kp,
      q = some (key, .storingSk kp) → f.blob .ed25519Pk = some kp.pk.toList ∧
        f.blob .ed25519Sk = none).mpr ⟨?_, fun s' _ => hinv.between s'⟩
    intro key kp hkp
    cases (hnew key _ hkp rfl).1
  · -- The session that generates is `s`, and then nobody else, or it is who it was.
    have hmoved : ∀ {key st s' key' st'}, q = some (key, st) → st.generates = true → s' ≠ s →
        place s' = some (key', st') → st'.generates ≠ true := by
      intro key st s' key' st' hq hg hne hs'
      rw [(hnew key st hq hg).2.2 s' key' st' hne hs']
      exact Bool.false_ne_true
    intro s₁ key₁ st₁ s₂ key₂ st₂ h₁ hg₁ h₂ hg₂
    rcases place_cases h₁ with ⟨hs₁, hq₁⟩ | ⟨hs₁, hp₁⟩
    · rcases place_cases h₂ with ⟨hs₂, -⟩ | ⟨hs₂, hp₂⟩
      · exact hs₁.trans hs₂.symm
      · exact absurd hg₂ (hmoved hq₁ hg₁ hs₂ hp₂)
    · rcases place_cases h₂ with ⟨-, hq₂⟩ | ⟨-, hp₂⟩
      · exact absurd hg₁ (hmoved hq₂ hg₂ hs₁ hp₁)
      · exact hinv.alone s₁ key₁ st₁ s₂ key₂ st₂ hp₁ hg₁ hp₂ hg₂
  · rw [hblob]
    exact hinv.pair
  · intro a ha hb
    rw [hblob] at ha hb
    obtain ⟨s', key, kp, hs'⟩ := hinv.half a ha hb
    have hne : s' ≠ s := by
      rintro rfl
      exact hold key kp hs'
    exact ⟨s', key, kp, by rwa [Function.update_of_ne hne]⟩
  · rw [hblob]
    exact hinv.pkFirst

/-- The places after the session `s` has moved on. -/
theorem call_update {session : S → Session} {place : S → Option (NvsKey × Stage)}
    (h : ∀ s, (session s).call = callAt (place s)) (s : S) (key : NvsKey) (st : Stage) (s' : S) :
    (Function.update session s { session s with call := some (key, st.prog key) } s').call =
      callAt (Function.update place s (some (key, st)) s') := by
  by_cases hs : s' = s
  · subst hs
    simp [callAt]
  · simpa only [Function.update_of_ne hs] using h s'

/-- The store of the public key. -/
theorem raceInv_setPk {f : Flash} {session : S → Session} {place : S → Option (NvsKey × Stage)}
    {s : S} {key : NvsKey} {kp : KeyPair} (hinv : RaceInv f session place)
    (hplace : place s = some (key, .storingPk kp)) :
    RaceInv (f.set .ed25519Pk kp.pk.toList) (Function.update session s
        { session s with call := some (key, (Stage.storingSk kp).prog key) })
      (Function.update place s (some (key, .storingSk kp))) := by
  have hpk : f.blob .ed25519Pk = none := hinv.before s key _ hplace rfl
  have hsk : f.blob .ed25519Sk = none := hinv.pkFirst hpk
  have hnone : ∀ k, f.blob k = none := by
    intro k
    cases k with
    | ed25519Pk => exact hpk
    | ed25519Sk => exact hsk
  have hothers {s' : S} {key' : NvsKey} {st' : Stage} (hne : s' ≠ s)
      (hs' : place s' = some (key', st')) : st'.generates = false :=
    not_generates_of_alone hinv hplace rfl hne hs'
  refine ⟨call_update hinv.call s key _, ?_, ?_, ?_, ?_, ?_, ?_, ?_, ?_, ?_⟩
  -- The store was empty, so that no session has a key or returns one.
  · intro s' a ha
    have hheld := hinv.held s' a ((update_call session s s' _).1.symm.trans ha)
    rw [hpk] at hheld
    cases hheld
  · intro s' b hb
    have hsigns := hinv.signs s' b ((update_call session s s' _).2.symm.trans hb)
    rw [hsk] at hsigns
    cases hsigns
  · intro s' key' x hx
    rcases place_cases hx with ⟨-, hq⟩ | ⟨-, hp⟩
    · cases hq
    · have hblob := hinv.returning s' key' x hp
      rw [hnone key'] at hblob
      cases hblob
  -- Only `s` generates, and it is between its two stores now.
  · intro s' key' st' hst hnothing
    rcases place_cases hst with ⟨-, hq⟩ | ⟨hs, hp⟩
    · cases hq
      cases hnothing
    · have hfalse := hothers hs hp
      rw [generates_of_storesNothing hnothing] at hfalse
      cases hfalse
  · intro s' key' kp' hkp
    rcases place_cases hkp with ⟨-, hq⟩ | ⟨hs, hp⟩
    · cases hq
      exact ⟨rfl, hsk⟩
    · cases hothers hs hp
  · intro s₁ key₁ st₁ s₂ key₂ st₂ h₁ hg₁ h₂ hg₂
    have hs : ∀ {s' key' st'}, Function.update place s (some (key, .storingSk kp)) s' =
        some (key', st') → st'.generates = true → s' = s := by
      intro s' key' st' h hg
      rcases place_cases h with ⟨hs, -⟩ | ⟨hs, hp⟩
      · exact hs
      · rw [hothers hs hp] at hg
        cases hg
    exact (hs h₁ hg₁).trans (hs h₂ hg₂).symm
  -- The half pair in the store is the one that `s` completes.
  · intro a b _ hb
    have hb' : f.blob .ed25519Sk = some b := hb
    rw [hsk] at hb'
    cases hb'
  · intro a _ _
    exact ⟨s, key, kp, Function.update_self _ _ _⟩
  · intro h
    cases h

/-- The store of the secret key. -/
theorem raceInv_setSk {f : Flash} {session : S → Session} {place : S → Option (NvsKey × Stage)}
    {s : S} {key : NvsKey} {kp : KeyPair} (hinv : RaceInv f session place)
    (hplace : place s = some (key, .storingSk kp)) :
    RaceInv (f.set .ed25519Sk kp.sk.toList) (Function.update session s
        { session s with call := some (key, (Stage.returning (some (kp.blob key))).prog key) })
      (Function.update place s (some (key, .returning (some (kp.blob key))))) := by
  obtain ⟨hpk, hsk⟩ := hinv.between s key kp hplace
  have hothers {s' : S} {key' : NvsKey} {st' : Stage} (h : Function.update place s
      (some (key, .returning (some (kp.blob key)))) s' = some (key', st')) :
      st'.generates = false := by
    rcases place_cases h with ⟨-, hq⟩ | ⟨hs, hp⟩
    · cases hq
      rfl
    · exact not_generates_of_alone hinv hplace rfl hs hp
  refine ⟨call_update hinv.call s key _, ?_, ?_, ?_, ?_, ?_, ?_, ?_, ?_, ?_⟩
  · intro s' a ha
    exact hinv.held s' a ((update_call session s s' _).1.symm.trans ha)
  · intro s' b hb
    have hsigns := hinv.signs s' b ((update_call session s s' _).2.symm.trans hb)
    rw [hsk] at hsigns
    cases hsigns
  · intro s' key' x hx
    rcases place_cases hx with ⟨-, hq⟩ | ⟨-, hp⟩
    · cases hq
      cases key with
      | ed25519Pk => exact hpk
      | ed25519Sk => rfl
    · have hblob := hinv.returning s' key' x hp
      cases key' with
      | ed25519Pk => exact hblob
      | ed25519Sk =>
        rw [hsk] at hblob
        cases hblob
  -- Nobody generates any more.
  · intro s' key' st' hst hnothing
    have hfalse := hothers hst
    rw [generates_of_storesNothing hnothing] at hfalse
    cases hfalse
  · intro s' key' kp' hkp
    cases hothers hkp
  · intro s₁ key₁ st₁ s₂ key₂ st₂ h₁ hg₁
    rw [hothers h₁] at hg₁
    cases hg₁
  -- Both blobs are those of the pair that `s` made.
  · intro a b ha hb
    have ha' : f.blob .ed25519Pk = some a := ha
    rw [hpk] at ha'
    cases ha'
    cases hb
    exact match_pair kp
  · intro a _ hb
    cases hb
  · intro h
    have h' : f.blob .ed25519Pk = none := h
    rw [hpk] at h'
    cases h'

/-- **One call of `load` keeps the invariant** when no other session generates at its
`NOT_FOUND`. -/
theorem raceInv_call {f f' : Flash} {session : S → Session} {place : S → Option (NvsKey × Stage)}
    {s : S} {key : NvsKey} {st st' : Stage} {a : Answer} (hinv : RaceInv f session place)
    (hplace : place s = some (key, st)) (hstep : StageStep key f st a f' st')
    (hsucc : a = .ok ∨ ∃ kp, a = .pair kp)
    (halone : st = .reading → f.blob key = none → ∀ s' key' st', s' ≠ s →
      place s' = some (key', st') → st'.generates = false) :
    RaceInv f' (Function.update session s
        { session s with call := some (key, st'.prog key) })
      (Function.update place s (some (key, st'))) := by
  -- All calls but the two stores leave the blobs alone.
  have hquiet (f'' : Flash) (hblob : f''.blob = f.blob) (hold : ∀ kp, st ≠ .storingSk kp)
      (hret : ∀ x, st' = .returning (some x) → f.blob key = some x)
      (hnew : st'.generates = true → st'.storesNothing = true ∧ f.blob .ed25519Pk = none ∧
        ∀ s' key' st', s' ≠ s → place s' = some (key', st') → st'.generates = false) :
      RaceInv f'' (Function.update session s { session s with call := some (key, st'.prog key) })
        (Function.update place s (some (key, st'))) := by
    refine raceInv_update hinv hblob s _ _ rfl (hinv.held s) (hinv.signs s) ?_ ?_ ?_
    · intro key' kp h
      rw [hplace] at h
      cases h
      exact hold kp rfl
    · intro key' x h
      cases h
      exact hret x rfl
    · intro key' st'' h
      cases h
      exact hnew
  cases hstep with
  | initDone _ => exact hquiet f rfl (by simp) (by simp) (by simp [Stage.generates])
  | initOk _ => exact hquiet _ rfl (by simp) (by simp) (by simp [Stage.generates])
  | initErased _ => simp at hsucc
  | initErasedFail _ => simp at hsucc
  | initFail _ => simp at hsucc
  | openOk => exact hquiet f rfl (by simp) (by simp) (by simp [Stage.generates])
  | openFail => simp at hsucc
  | getFound hblob =>
    refine hquiet f rfl (by simp) ?_ (by simp [Stage.generates])
    intro x hx
    cases hx
    exact hblob
  | getLong => exact hquiet f rfl (by simp) (by simp) (by simp [Stage.generates])
  | getNotFound hblob =>
    refine hquiet f rfl (by simp) (by simp) fun _ => ⟨rfl, ?_, halone rfl hblob⟩
    cases key with
    | ed25519Pk => exact hblob
    | ed25519Sk =>
      -- a stored public key without its secret key is another session's, which still generates
      cases hpk : f.blob .ed25519Pk with
      | none => rfl
      | some a =>
        obtain ⟨s', key', kp, hs'⟩ := hinv.half a hpk hblob
        have hne : s' ≠ s := by
          rintro rfl
          rw [hplace] at hs'
          cases hs'
        cases halone rfl hblob s' key' _ hne hs'
  | getFail => simp at hsucc
  | pair kp =>
    exact hquiet f rfl (by simp) (by simp) fun _ => ⟨rfl, hinv.before s key _ hplace rfl,
      fun s' key' st' hne hs' => not_generates_of_alone hinv hplace rfl hne hs'⟩
  | pairFail => simp at hsucc
  | setPk => exact raceInv_setPk hinv hplace
  | setPkFail => simp at hsucc
  | setSk => exact raceInv_setSk hinv hplace
  | setSkFail => simp at hsucc

/-- **Every allowed step keeps the invariant.** -/
theorem raceInv_step {d d' : Device S} {e : Event S} {place : S → Option (NvsKey × Stage)}
    (hinv : RaceInv d.flash d.session place) (hsucc : Succeeds e) (halone : GeneratesAlone d e)
    (h : d.step e = some d') : ∃ place', RaceInv d'.flash d'.session place' := by
  have hplaced {s : S} (hc : (d.session s).call = none) : place s = none := by
    have hcall := hinv.call s
    rw [hc] at hcall
    exact Option.map_eq_none_iff.mp hcall.symm
  cases e with
  | enter s key =>
    simp only [Device.step] at h
    split at h
    · rename_i hc
      cases h
      refine ⟨_, raceInv_update hinv rfl s _ (some (key, .entered)) rfl ?_ ?_ ?_ (by simp) ?_⟩
      · intro a ha
        simp only [Session.enter] at ha
        split at ha
        · cases ha
        · exact hinv.held s a ha
      · intro b hb
        cases hb
      · simp [hplaced hc]
      · intro key' st hst hgen
        cases hst
        cases hgen
    · cases h
  | call s a =>
    cases hplace : place s with
    | none =>
      have hcall := hinv.call s
      rw [hplace] at hcall
      rw [Device.step, hcall] at h
      cases h
    | some x =>
      obtain ⟨key, st⟩ := x
      have hcall : (d.session s).call = some (key, st.prog key) := by
        rw [hinv.call s, hplace]
        rfl
      obtain ⟨f', st', hstep, rfl⟩ := Device.step_call hcall h
      refine ⟨_, raceInv_call hinv hplace hstep hsucc ?_⟩
      rintro rfl hblob s' key' st'' hne hs'
      have hcall' : (d.session s').call = some (key', st''.prog key') := by
        rw [hinv.call s', hs']
        rfl
      rw [← generates_prog key']
      exact halone key _ hcall key rfl hblob s' key' _ hne hcall'
  | leave s =>
    obtain ⟨key, x, hc, rfl⟩ := Device.step_leave h
    have hplace : place s = some (key, .returning x) := by
      have hcall := hinv.call s
      rw [hc] at hcall
      obtain ⟨⟨key', st⟩, hp, heq⟩ := Option.map_eq_some_iff.mp hcall.symm
      obtain ⟨rfl, hprog⟩ := Prod.mk.inj heq
      cases st with
      | returning y => cases hprog; exact hp
      | _ => cases hprog
    -- The key that the session gets is the one in the store.
    refine ⟨_, raceInv_update hinv rfl s _ none rfl ?_ ?_ ?_ (by simp) (by simp)⟩
    · intro a ha
      cases key with
      | ed25519Pk =>
        simp only [Session.leave, if_true] at ha
        subst ha
        exact hinv.returning s _ a hplace
      | ed25519Sk =>
        simp only [Session.leave, reduceCtorEq, if_false] at ha
        exact hinv.held s a ha
    · intro b hb
      cases key with
      | ed25519Pk =>
        simp only [Session.leave, reduceCtorEq, if_false] at hb
        exact hinv.signs s b hb
      | ed25519Sk =>
        simp only [Session.leave, if_true] at hb
        subst hb
        exact hinv.returning s _ b hplace
    · simp [hplace]
  | hangUp s =>
    simp only [Device.step] at h
    split at h
    · rename_i hc
      cases h
      refine ⟨_, raceInv_update hinv rfl s .fresh none rfl (by simp [Session.fresh])
        (by simp [Session.fresh]) ?_ (by simp) (by simp)⟩
      simp [hplaced hc]
    · cases h
  | powerLoss => exact absurd hsucc id

/-- **When no two sessions generate at once, every session signs with the key that belongs to the
public key it has loaded, and the store ends with one generated pair.** -/
theorem consistent_of_alone {f : Flash} (hf : ∀ key, f.blob key = none) {d : Device S}
    (h : Run Device.step (fun d e => Succeeds e ∧ GeneratesAlone d e) (Device.boot S f) d) :
    d.Consistent ∧
      ((∀ s key p, (d.session s).call = some (key, p) → p.generates = false) →
        (∃ s, (d.session s).pk ≠ none ∨ (d.session s).sk ≠ none) →
        ∃ kp : KeyPair, d.flash.blob .ed25519Pk = some kp.pk.toList ∧
          d.flash.blob .ed25519Sk = some kp.sk.toList) := by
  obtain ⟨place, hinv⟩ :=
    Run.invariant (fun d : Device S => ∃ place, RaceInv d.flash d.session place)
      ⟨_, raceInv_boot hf⟩
      (fun _ _ _ ⟨_, hinv⟩ ⟨hsucc, halone⟩ hs => raceInv_step hinv hsucc halone hs) h
  refine ⟨fun s pk sk hpk hsk => hinv.pair pk sk (hinv.held s pk hpk) (hinv.signs s sk hsk), ?_⟩
  rintro hquiet ⟨s, hs⟩
  cases hpk : d.flash.blob .ed25519Pk with
  | none =>
    have hsk := hinv.pkFirst hpk
    rcases hs with hs | hs
    · obtain ⟨a, ha⟩ := Option.ne_none_iff_exists'.mp hs
      rw [hinv.held s a ha] at hpk
      cases hpk
    · obtain ⟨b, hb⟩ := Option.ne_none_iff_exists'.mp hs
      rw [hinv.signs s b hb] at hsk
      cases hsk
  | some a =>
    cases hsk : d.flash.blob .ed25519Sk with
    | none =>
      obtain ⟨s', key, kp, hs'⟩ := hinv.half a hpk hsk
      have hcall : (d.session s').call = some (key, (Stage.storingSk kp).prog key) := by
        rw [hinv.call s', hs']
        rfl
      cases hquiet s' key _ hcall
    | some b =>
      obtain ⟨kp, rfl, rfl⟩ := hinv.pair a b hpk hsk
      exact ⟨kp, rfl, rfl⟩

end

/-- The answers to the calls of a session, in a row. -/
def answers (s : Bool) (l : List Answer) : List (Event Bool) := l.map (.call s)

/-- `Succeeds`, as a test on events. -/
def succeedsCheck : Event Bool → Bool
  | .call _ .ok => true
  | .call _ (.pair _) => true
  | .call _ _ => false
  | .powerLoss => false
  | _ => true

theorem succeeds_of_check (e : Event Bool) (h : succeedsCheck e = true) : Succeeds e := by
  cases e with
  | call s a =>
    cases a with
    | ok => exact Or.inl rfl
    | pair kp => exact Or.inr ⟨kp, rfl⟩
    | fail => cases h
    | erased => cases h
    | erasedFail => cases h
  | powerLoss => cases h
  | _ => trivial

/-- `GeneratesAlone` of two sessions, as a test. -/
def aloneCheck (d : Device Bool) : Event Bool → Bool
  | .call s _ =>
    match (d.session s).call, (d.session (!s)).call with
    | some (_, p), some (_, p') =>
      match p.readsBlob with
      | some k => (d.flash.blob k).isSome || !p'.generates
      | none => true
    | _, _ => true
  | _ => true

theorem generatesAlone_of_check (d : Device Bool) (e : Event Bool) (h : aloneCheck d e = true) :
    GeneratesAlone d e := by
  cases e with
  | call s a =>
    intro key p hc k hk hnone s' key' p' hne hc'
    have hs : s' = !s := Bool.eq_not_of_ne hne
    subst hs
    simp only [aloneCheck, hc, hc', hk, hnone, Option.isSome_none, Bool.false_or,
      Bool.not_eq_true'] at h
    exact h
  | _ => trivial

/-- Two sessions, one of which generates while the other has not looked yet. -/
theorem consistent_of_alone_two :
    ∃ d : Device Bool,
      (d.session false).pk = some (constPair 1).pk.toList ∧
      (d.session false).sk = some (constPair 1).sk.toList ∧ d.Consistent := by
  refine ⟨_, rfl, rfl, (consistent_of_alone (f := .empty) (fun _ => rfl) (Run.of_trace
    (fun d e => succeedsCheck e && aloneCheck d e) ?_
      ([.enter true .ed25519Pk, .enter false .ed25519Pk] ++ answers false [.ok, .ok] ++
      answers true [.ok, .ok, .ok, .pair (constPair 1), .ok, .ok] ++ [.leave true] ++
      answers false [.ok] ++ [.leave false, .enter false .ed25519Sk] ++
      answers false [.ok, .ok, .ok] ++ [.leave false]) rfl)).1⟩
  intro d e h
  obtain ⟨hsucc, halone⟩ := Bool.and_eq_true_iff.mp h
  exact ⟨succeeds_of_check e hsucc, generatesAlone_of_check d e halone⟩

/-- Both sessions find no public key and generate.  The second one stores its pair between the two
stores of the first: the public key of one pair and the secret key of the other are left, and the
second session signs with the key of the first. -/
theorem mismatch_of_race :
    ∃ d : Device Bool, Run Device.step (fun _ e => Succeeds e) (Device.boot Bool .empty) d ∧
      (∀ s, (d.session s).call = none) ∧
      d.flash.blob .ed25519Pk = some (constPair 2).pk.toList ∧
      d.flash.blob .ed25519Sk = some (constPair 1).sk.toList ∧ ¬d.Consistent := by
  refine ⟨_, Run.of_trace (fun _ e => succeedsCheck e)
    (fun _ e h => succeeds_of_check e h)
      ([.enter true .ed25519Pk, .enter false .ed25519Pk] ++
      answers true [.ok, .ok, .ok, .pair (constPair 1)] ++
      answers false [.ok, .ok, .ok, .pair (constPair 2)] ++
      answers true [.ok] ++ answers false [.ok, .ok] ++ answers true [.ok] ++
      [.leave true, .leave false, .enter false .ed25519Sk] ++
      answers false [.ok, .ok, .ok] ++ [.leave false]) rfl, ?_, rfl, rfl, ?_⟩
  · intro s
    cases s <;> rfl
  · intro h
    obtain ⟨kp, hpk, hsk⟩ := h false _ _ rfl rfl
    have htail := kp.sk_pk
    rw [hpk, hsk] at htail
    exact absurd htail (by decide)

end Glossh.Ssh
