/-
# Host keys when storage fails

Runs of `port_load.c` in which calls of `load` follow one another, with any pattern of failing NVS
calls and with power losses between any two of them.

`load` goes on after a store that failed, and returns the half of a pair whose other half it could
not store; and a power loss between its two stores leaves a public key without its secret key.
The next call for the secret key then generates another pair (`mismatch_of_failed_store`).
`consistent_of_sequential` says that nothing else goes wrong: as long as every generated pair gets
stored, the secret key a session loads belongs to its public key.

The invariant (`SeqInv`) is kept by one lemma for each kind of step; the calls inside `load` are
those of `atStage_step`.
-/
import Glossh.Ssh.Load

namespace Glossh.Ssh

/-! ## 1. The runs -/

section

variable {S : Type}

/-- The calls of `load` follow one another. -/
def Sequential (d : Device S) : Event S → Prop
  | .enter _ _ => ∀ s, (d.session s).call = none
  | _ => True

/-- **Every generated pair gets stored**: the store of the secret key succeeds, no power loss
comes between a stored public key and it, and no new pair replaces a public key that was never
stored while a session still uses that one. -/
def StoresPair (d : Device S) : Event S → Prop
  | .call s a =>
    ∀ key p, (d.session s).call = some (key, p) →
      (p.storesSk = true → a = .ok) ∧
      (p.readsBlob = some .ed25519Pk → d.flash.blob .ed25519Pk = none →
        ∀ s', (d.session s').pk = none)
  | .powerLoss =>
    d.flash.blob .ed25519Pk ≠ none →
      ∀ s key p, (d.session s).call = some (key, p) → p.storesSk = false
  | _ => True

/-! ## 2. The invariant -/

/-- The flash memory has the secret key to every public key that is stored or in use. -/
structure Backed (f : Flash) (held : S → Option Bytes) : Prop where
  stored : ∀ a, f.blob .ed25519Pk = some a → ∃ b, f.blob .ed25519Sk = some b ∧ Match a b
  held : ∀ s a, held s = some a → ∃ b, f.blob .ed25519Sk = some b ∧ Match a b

/-- What holds while the one session that is in `load` is at a stage. -/
def AtStage (f : Flash) (held : S → Option Bytes) (s : S) (key : NvsKey) : Stage → Prop
  | .entered => Backed f held
  | .opening | .reading => f.initialized = true ∧ Backed f held
  | .generating | .storingPk _ =>
    f.initialized = true ∧ (∀ s', held s' = none) ∧ f.blob .ed25519Pk = none
  | .storingSk kp =>
    f.initialized = true ∧ (∀ s', held s' = none) ∧
      (f.blob .ed25519Pk = none ∨ f.blob .ed25519Pk = some kp.pk.toList)
  | .returning x =>
    Backed f held ∧ ∀ b, x = some b → f.initialized = true ∧
      (key = .ed25519Pk → ∃ b', f.blob .ed25519Sk = some b' ∧ Match b b') ∧
      (key = .ed25519Sk → ∀ a, held s = some a → Match a b)

/-- The invariant of runs in which calls of `load` follow one another. -/
structure SeqInv (d : Device S) : Prop where
  consistent : d.Consistent
  boot : d.flash.initialized = false → ∀ s, (d.session s).pk = none
  situation :
    ((∀ s, (d.session s).call = none) ∧ Backed d.flash fun s => (d.session s).pk) ∨
    ∃ s key st, (d.session s).call = some (key, Stage.prog key st) ∧
      (∀ s', s' ≠ s → (d.session s').call = none) ∧ (d.session s).sk = none ∧
      (key = .ed25519Pk → (d.session s).pk = none) ∧
      AtStage d.flash (fun s => (d.session s).pk) s key st

/-- An NVS without keys backs the sessions that have none. -/
theorem backed_of_none {f : Flash} {held : S → Option Bytes} (hpk : f.blob .ed25519Pk = none)
    (hheld : ∀ s, held s = none) : Backed f held where
  stored a ha := by
    rw [hpk] at ha
    cases ha
  held s a ha := by
    rw [hheld s] at ha
    cases ha

/-- Dropping keys keeps the rest backed. -/
theorem Backed.mono {f : Flash} {held held' : S → Option Bytes} (h : Backed f held)
    (hle : ∀ s a, held' s = some a → held s = some a) : Backed f held' where
  stored := h.stored
  held s a ha := h.held s a (hle s a ha)

/-- A key that is not held is none of fewer keys either. -/
theorem none_of_mono {held held' : S → Option Bytes}
    (hle : ∀ s a, held' s = some a → held s = some a) (h : ∀ s, held s = none) (s : S) :
    held' s = none := by
  cases hs : held' s with
  | none => rfl
  | some a =>
    have hold := hle s a hs
    rw [h s] at hold
    cases hold

theorem AtStage.mono {f : Flash} {held held' : S → Option Bytes} {s : S} {key : NvsKey}
    {st : Stage} (h : AtStage f held s key st)
    (hle : ∀ s a, held' s = some a → held s = some a) : AtStage f held' s key st := by
  cases st with
  | entered => exact Backed.mono h hle
  | opening => exact ⟨h.1, h.2.mono hle⟩
  | reading => exact ⟨h.1, h.2.mono hle⟩
  | generating => exact ⟨h.1, none_of_mono hle h.2.1, h.2.2⟩
  | storingPk kp => exact ⟨h.1, none_of_mono hle h.2.1, h.2.2⟩
  | storingSk kp => exact ⟨h.1, none_of_mono hle h.2.1, h.2.2⟩
  | returning x =>
    refine ⟨h.1.mono hle, fun b hb => ?_⟩
    obtain ⟨hinit, hpk, hsk⟩ := h.2 b hb
    exact ⟨hinit, hpk, fun hkey a ha => hsk hkey a (hle s a ha)⟩

theorem seqInv_boot (f : Flash) (hf : Backed f fun _ : S => (none : Option Bytes)) :
    SeqInv (Device.boot S f) where
  consistent s pk sk hpk hsk := by cases hpk
  boot _ _ := rfl
  situation := Or.inl ⟨fun _ => rfl, hf⟩

/-- **One call of `load` keeps what holds at its stage.** -/
theorem atStage_step {f f' : Flash} {held : S → Option Bytes} {s : S} {key : NvsKey}
    {st st' : Stage} {a : Answer} (hstep : StageStep key f st a f' st')
    (hstore : (st.prog key).storesSk = true → a = .ok)
    (hread : (st.prog key).readsBlob = some .ed25519Pk → f.blob .ed25519Pk = none →
      ∀ s', held s' = none)
    (hboot : f.initialized = false → ∀ s', held s' = none) (h : AtStage f held s key st) :
    AtStage f' held s key st' := by
  cases hstep with
  | initDone hinit => exact ⟨hinit, h⟩
  | initOk _ => exact ⟨rfl, h.stored, h.held⟩
  | initErased hinit => exact ⟨rfl, backed_of_none rfl (hboot hinit)⟩
  | initErasedFail hinit =>
    exact ⟨backed_of_none rfl (hboot hinit), fun b hb => by cases hb⟩
  | initFail _ => exact ⟨h, fun b hb => by cases hb⟩
  | openOk => exact h
  | openFail => exact ⟨h.2, fun b hb => by cases hb⟩
  | getLong => exact ⟨h.2, fun b hb => by cases hb⟩
  | getFail => exact ⟨h.2, fun b hb => by cases hb⟩
  | pairFail =>
    obtain ⟨-, hheld, hpk⟩ := h
    exact ⟨backed_of_none hpk hheld, fun b hb => by cases hb⟩
  | getFound hblob =>
    rename_i b
    refine ⟨h.2, ?_⟩
    rintro b' hb'
    cases hb'
    refine ⟨h.1, ?_, ?_⟩
    · rintro rfl
      exact h.2.stored b hblob
    · rintro rfl a ha
      obtain ⟨b', hb', hmatch⟩ := h.2.held s a ha
      rw [hblob] at hb'
      cases hb'
      exact hmatch
  | getNotFound hblob =>
    obtain ⟨hinit, hbacked⟩ := h
    cases key with
    | ed25519Pk => exact ⟨hinit, hread rfl hblob, hblob⟩
    | ed25519Sk =>
      -- a public key that is stored or in use would have its secret key there
      refine ⟨hinit, fun s' => ?_, ?_⟩
      · cases hs' : held s' with
        | none => rfl
        | some a =>
          obtain ⟨b, hb, -⟩ := hbacked.held s' a hs'
          rw [hblob] at hb
          cases hb
      · cases hpk : f.blob .ed25519Pk with
        | none => rfl
        | some a =>
          obtain ⟨b, hb, -⟩ := hbacked.stored a hpk
          rw [hblob] at hb
          cases hb
  | pair kp => exact h
  | setPk =>
    obtain ⟨hinit, hheld, -⟩ := h
    exact ⟨hinit, hheld, Or.inr rfl⟩
  | setPkFail =>
    obtain ⟨hinit, hheld, hpk⟩ := h
    exact ⟨hinit, hheld, Or.inl hpk⟩
  | setSk =>
    rename_i kp
    obtain ⟨hinit, hheld, hpk⟩ := h
    refine ⟨⟨?_, ?_⟩, ?_⟩
    · intro a ha
      have ha' : f.blob .ed25519Pk = some a := ha
      refine ⟨kp.sk.toList, rfl, ?_⟩
      rcases hpk with hpk | hpk
      · rw [hpk] at ha'
        cases ha'
      · rw [hpk] at ha'
        cases ha'
        exact match_pair kp
    · intro s' a ha
      rw [hheld s'] at ha
      cases ha
    · intro b hb
      cases hb
      refine ⟨hinit, ?_, ?_⟩
      · rintro rfl
        exact ⟨kp.sk.toList, rfl, match_pair kp⟩
      · rintro rfl a ha
        rw [hheld s] at ha
        cases ha
  | setSkFail => cases hstore rfl

/-- No call undoes the initialisation. -/
theorem initialized_of_step {f f' : Flash} {key : NvsKey} {st st' : Stage} {a : Answer}
    (hstep : StageStep key f st a f' st') (h : f'.initialized = false) :
    f.initialized = false := by
  cases hstep with
  | initOk _ => cases h
  | initErased _ => cases h
  | initErasedFail hinit => exact hinit
  | _ => exact h

/-- Between calls of `load` every stored or used public key is backed. -/
theorem backed_of_idle {d : Device S} (hinv : SeqInv d) (hidle : ∀ s, (d.session s).call = none) :
    Backed d.flash fun s => (d.session s).pk := by
  rcases hinv.situation with ⟨-, hbacked⟩ | ⟨s, key, st, hc, -⟩
  · exact hbacked
  · rw [hidle s] at hc
    cases hc

/-- A power loss leaves what is stored. -/
theorem seqInv_powerLoss {d : Device S} (hinv : SeqInv d) (hstores : StoresPair d .powerLoss) :
    SeqInv (Device.boot S { d.flash with initialized := false }) := by
  refine seqInv_boot _ ⟨?_, fun s a ha => by cases ha⟩
  intro a ha
  have ha' : d.flash.blob .ed25519Pk = some a := ha
  rcases hinv.situation with ⟨-, hbacked⟩ | ⟨s, key, st, hc, -, -, -, hat⟩
  · exact hbacked.stored a ha'
  · have hnot := hstores (by rw [ha']; exact Option.some_ne_none a) s key _ hc
    cases st with
    | entered => exact hat.stored a ha'
    | opening => exact hat.2.stored a ha'
    | reading => exact hat.2.stored a ha'
    | generating =>
      rw [hat.2.2] at ha'
      cases ha'
    | storingPk kp =>
      rw [hat.2.2] at ha'
      cases ha'
    | storingSk kp => cases hnot
    | returning x => exact hat.1.stored a ha'

/-! ## 3. The steps -/

variable [DecidableEq S]

/-- One session changes: the public keys in use are still those of before. -/
theorem pk_of_update {session : S → Session} {s : S} {t : Session}
    (ht : ∀ a, t.pk = some a → (session s).pk = some a) :
    ∀ s' a, (Function.update session s t s').pk = some a → (session s').pk = some a :=
  (Function.forall_update_iff session fun s' t => ∀ a, t.pk = some a →
    (session s').pk = some a).mpr ⟨ht, fun _ _ _ h => h⟩

/-- One session changes to one whose keys belong together. -/
theorem consistent_update {d : Device S} {s : S} {t : Session} (h : d.Consistent)
    (ht : ∀ pk sk, t.pk = some pk → t.sk = some sk → Match pk sk) :
    Device.Consistent { d with session := Function.update d.session s t } :=
  (Function.forall_update_iff d.session fun _ t => ∀ pk sk, t.pk = some pk → t.sk = some sk →
    Match pk sk).mpr ⟨ht, fun s' _ => h s'⟩

theorem seqInv_enter {d : Device S} {s : S} {key : NvsKey} (hinv : SeqInv d)
    (hidle : ∀ s, (d.session s).call = none) :
    SeqInv { d with session := Function.update d.session s ((d.session s).enter key) } := by
  have hpk : ∀ s' a, (Function.update d.session s ((d.session s).enter key) s').pk = some a →
      (d.session s').pk = some a := by
    refine pk_of_update fun a ha => ?_
    simp only [Session.enter] at ha
    split at ha
    · cases ha
    · exact ha
  refine ⟨?_, ?_, Or.inr ⟨s, key, .entered, ?_, ?_, ?_, ?_, ?_⟩⟩
  · exact consistent_update hinv.consistent fun pk sk _ hsk => by cases hsk
  · intro hinit s'
    exact none_of_mono hpk (hinv.boot hinit) s'
  · simp [Session.enter, Stage.prog]
  · intro s' hne
    simp only [Function.update_of_ne hne]
    exact hidle s'
  · simp [Session.enter]
  · rintro rfl
    simp [Session.enter]
  · exact (backed_of_idle hinv hidle).mono hpk

/-- What leaving `load` leaves of the invariant: the keys of the session belong together. -/
theorem seqInv_leave {d : Device S} {s : S} {key : NvsKey} {x : Option Bytes} (hinv : SeqInv d)
    (hc : (d.session s).call = some (key, .done x)) :
    SeqInv { d with session := Function.update d.session s ((d.session s).leave key x) } := by
  rcases hinv.situation with ⟨hidle, -⟩ | ⟨s₀, key₀, st, hc₀, hothers, hsk, hown, hat⟩
  · rw [hidle s] at hc
    cases hc
  · have hs : s = s₀ := by
      by_contra hne
      rw [hothers s hne] at hc
      cases hc
    subst hs
    rw [hc₀] at hc
    obtain ⟨rfl, hdone⟩ := Prod.mk.inj (Option.some.inj hc)
    have hst : st = .returning x := by
      cases st with
      | returning y => cases hdone; rfl
      | _ => cases hdone
    subst hst
    obtain ⟨hbacked, hx⟩ := hat
    refine ⟨?_, ?_, Or.inl ⟨?_, hbacked.stored, ?_⟩⟩
    · refine consistent_update hinv.consistent fun pk sk hpk' hsk' => ?_
      cases key₀ with
      | ed25519Pk =>
        simp only [Session.leave, reduceCtorEq, if_false, hsk] at hsk'
      | ed25519Sk =>
        simp only [Session.leave, reduceCtorEq, if_false, if_true] at hpk' hsk'
        exact (hx sk hsk').2.2 rfl pk hpk'
    · intro hinit
      refine (Function.forall_update_iff d.session fun _ t => t.pk = none).mpr
        ⟨?_, fun s' _ => hinv.boot hinit s'⟩
      cases hx' : x with
      | none =>
        simp only [Session.leave]
        split
        · rfl
        · exact hinv.boot hinit s
      | some b =>
        have hinit' : d.flash.initialized = true := (hx b hx').1
        rw [show d.flash.initialized = false from hinit] at hinit'
        cases hinit'
    · exact (Function.forall_update_iff d.session fun _ t => t.call = none).mpr ⟨rfl, hothers⟩
    · refine (Function.forall_update_iff d.session fun _ t => ∀ a, t.pk = some a →
        ∃ b, d.flash.blob .ed25519Sk = some b ∧ Match a b).mpr
        ⟨fun a ha => ?_, fun s' _ => hbacked.held s'⟩
      cases key₀ with
      | ed25519Pk =>
        simp only [Session.leave, if_true] at ha
        exact (hx a ha).2.1 rfl
      | ed25519Sk =>
        simp only [Session.leave, reduceCtorEq, if_false] at ha
        exact hbacked.held s a ha

theorem seqInv_hangUp {d : Device S} {s : S} (hinv : SeqInv d)
    (hc : (d.session s).call = none) :
    SeqInv { d with session := Function.update d.session s .fresh } := by
  have hpk : ∀ s' a, (Function.update d.session s Session.fresh s').pk = some a →
      (d.session s').pk = some a := pk_of_update fun a ha => by cases ha
  have hcall : ∀ s', (d.session s').call = none →
      (Function.update d.session s Session.fresh s').call = none :=
    (Function.forall_update_iff d.session fun s' t => (d.session s').call = none →
      t.call = none).mpr ⟨fun _ => rfl, fun _ _ h => h⟩
  refine ⟨?_, fun hinit => none_of_mono hpk (hinv.boot hinit), ?_⟩
  · exact consistent_update hinv.consistent fun pk sk _ hsk => by cases hsk
  · rcases hinv.situation with ⟨hidle, hbacked⟩ | ⟨s₀, key, st, hc₀, hothers, hsk, hown, hat⟩
    · exact Or.inl ⟨fun s' => hcall s' (hidle s'), hbacked.mono hpk⟩
    · have hne : s₀ ≠ s := by
        rintro rfl
        rw [hc] at hc₀
        cases hc₀
      refine Or.inr ⟨s₀, key, st, ?_, fun s' hs' => hcall s' (hothers s' hs'), ?_, ?_,
        hat.mono hpk⟩
      · simpa only [Function.update_of_ne hne] using hc₀
      · simpa only [Function.update_of_ne hne] using hsk
      · simpa only [Function.update_of_ne hne] using hown

/-- **Every allowed step keeps the invariant.** -/
theorem seqInv_step {d d' : Device S} {e : Event S} (hinv : SeqInv d) (hseq : Sequential d e)
    (hstores : StoresPair d e) (h : d.step e = some d') : SeqInv d' := by
  cases e with
  | enter s key =>
    simp only [Device.step, hseq s] at h
    cases h
    exact seqInv_enter hinv hseq
  | call s a =>
    rcases hinv.situation with ⟨hidle, -⟩ | ⟨s₀, key, st, hc, hothers, hsk, hown, hat⟩
    · simp only [Device.step, hidle s] at h
      cases h
    · have hs : s = s₀ := by
        by_contra hne
        simp only [Device.step, hothers s hne] at h
        cases h
      subst hs
      obtain ⟨f', st', hstep, rfl⟩ := Device.step_call hc h
      obtain ⟨hstore, hread⟩ := hstores key _ hc
      have hheld : (fun s' => (Function.update d.session s
            { d.session s with call := some (key, st'.prog key) } s').pk) =
          fun s' => (d.session s').pk :=
        funext fun s' => (update_call d.session s s' _).1
      refine ⟨?_, ?_, Or.inr ⟨s, key, st', ?_, ?_, ?_, ?_, ?_⟩⟩
      · intro s' pk sk hpk hsk'
        obtain ⟨e1, e2⟩ := update_call d.session s s' (some (key, st'.prog key))
        exact hinv.consistent s' pk sk (e1.symm.trans hpk) (e2.symm.trans hsk')
      · intro hinit s'
        exact (update_call d.session s s' _).1.trans
          (hinv.boot (initialized_of_step hstep hinit) s')
      · simp
      · intro s' hne
        simp only [Function.update_of_ne hne]
        exact hothers s' hne
      · exact (update_call d.session s s _).2.trans hsk
      · intro hkey
        exact (update_call d.session s s _).1.trans (hown hkey)
      · simp only [hheld]
        exact atStage_step hstep hstore hread hinv.boot hat
  | leave s =>
    obtain ⟨key, x, hc, rfl⟩ := Device.step_leave h
    exact seqInv_leave hinv hc
  | hangUp s =>
    simp only [Device.step] at h
    split at h
    · rename_i hc
      cases h
      exact seqInv_hangUp hinv hc
    · cases h
  | powerLoss =>
    cases h
    exact seqInv_powerLoss hinv hstores

/-- **When every generated pair gets stored, what a session signs with belongs to the public key
it has loaded**: in every state of every run in which calls of `load` follow one another, whatever
else fails and whenever the power is lost. -/
theorem consistent_of_sequential {d : Device S}
    (h : Run Device.step (fun d e => Sequential d e ∧ StoresPair d e) (Device.boot S .empty) d) :
    d.Consistent := by
  refine (Run.invariant SeqInv ?_ ?_ h).consistent
  · exact seqInv_boot _ (backed_of_none rfl fun _ => rfl)
  · rintro d e d' hinv ⟨hseq, hstores⟩ hs
    exact seqInv_step hinv hseq hstores hs

end

/-- The events of a session alone on the device that loads its two keys. -/
def loadBoth (answersPk answersSk : List Answer) : List (Event Unit) :=
  [.enter () .ed25519Pk] ++ answersPk.map (.call ()) ++ [.leave (), .enter () .ed25519Sk] ++
    answersSk.map (.call ()) ++ [.leave ()]

def sequentialCheck (d : Device Unit) : Event Unit → Bool
  | .enter _ _ => (d.session ()).call.isNone
  | _ => true

theorem sequential_of_check (d : Device Unit) (e : Event Unit) (h : sequentialCheck d e = true) :
    Sequential d e := by
  cases e with
  | enter s key =>
    intro s'
    exact Option.isNone_iff_eq_none.mp h
  | _ => trivial

/-- The store of the secret key fails while the public key is loaded, and the call for the secret
key generates another pair: the session signs with a key that its public key does not verify. -/
theorem mismatch_of_failed_store :
    ∃ d : Device Unit, Run Device.step Sequential (Device.boot Unit .empty) d ∧
      (d.session ()).pk = some (constPair 1).pk.toList ∧
      (d.session ()).sk = some (constPair 2).sk.toList ∧ ¬d.Consistent := by
  refine ⟨_, Run.of_trace sequentialCheck sequential_of_check (loadBoth
    [.ok, .ok, .ok, .pair (constPair 1), .ok, .fail] [.ok, .ok, .ok, .pair (constPair 2), .ok, .ok])
    rfl, rfl, rfl, ?_⟩
  intro h
  obtain ⟨kp, hpk, hsk⟩ := h () _ _ rfl rfl
  have htail := kp.sk_pk
  rw [hpk, hsk] at htail
  exact absurd htail (by decide)

def storesPairCheck (d : Device Unit) : Event Unit → Bool
  | .call _ a =>
    match (d.session ()).call with
    | some (_, p) =>
      (!p.storesSk || (match a with | .ok => true | _ => false)) &&
        (p.readsBlob != some .ed25519Pk || (d.flash.blob .ed25519Pk).isSome ||
          (d.session ()).pk.isNone)
    | none => true
  | .powerLoss => (d.session ()).call.isNone
  | _ => true

theorem storesPair_of_check (d : Device Unit) (e : Event Unit) (h : storesPairCheck d e = true) :
    StoresPair d e := by
  cases e with
  | call s a =>
    intro key p hc
    simp only [storesPairCheck, show (d.session ()).call = some (key, p) from hc,
      Bool.and_eq_true, Bool.or_eq_true, Bool.not_eq_true', bne_iff_ne] at h
    obtain ⟨hstore, hread⟩ := h
    refine ⟨fun hsk => ?_, fun hpk hnone s' => ?_⟩
    · rcases hstore with hno | hok
      · rw [hsk] at hno
        cases hno
      · cases a with
        | ok => rfl
        | _ => cases hok
    · rcases hread with (hne | hsome) | hpk'
      · exact absurd hpk hne
      · rw [hnone] at hsome
        cases hsome
      · exact Option.isNone_iff_eq_none.mp hpk'
  | powerLoss =>
    intro _ s key p hc
    rw [show (d.session s).call = none from Option.isNone_iff_eq_none.mp h] at hc
    cases hc
  | enter s key => trivial
  | leave s => trivial
  | hangUp s => trivial

/-- A new chip on which the store of the public key fails, before the power is lost: the session
after that finds a secret key alone, generates another pair and signs with it. -/
theorem consistent_of_sequential_powerLoss :
    ∃ d : Device Unit,
      (d.session ()).pk = some (constPair 2).pk.toList ∧
      (d.session ()).sk = some (constPair 2).sk.toList ∧ d.Consistent := by
  refine ⟨_, rfl, rfl, consistent_of_sequential (Run.of_trace
    (fun d e => sequentialCheck d e && storesPairCheck d e) ?_ (loadBoth
    [.ok, .ok, .ok, .pair (constPair 1), .fail, .ok] [.ok, .ok, .ok] ++ [.powerLoss] ++ loadBoth
    [.ok, .ok, .ok, .pair (constPair 2), .ok, .ok] [.ok, .ok, .ok]) rfl)⟩
  intro d e h
  obtain ⟨hseq, hstores⟩ := Bool.and_eq_true_iff.mp h
  exact ⟨sequential_of_check d e hseq, storesPair_of_check d e hstores⟩

end Glossh.Ssh
