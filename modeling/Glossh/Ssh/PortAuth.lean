/-
# `port_auth.c` and `str.c` on strings in memory

`str_len`, `str_start` and `findnameandkey` as they walk over memory: each character is read, and a
read behind the end of an array has the value `none`.  `subprocess_auth` works on the array `line`,
which `nvs_get_str` fills.

`findnameandkey_eq` says what the walk finds: the name, one space, the key, and behind them the end
of the text or one of three characters.  Where neither field contains a character that ends a field,
that determines both (`fields_injective`), and nothing but the stored key is authorized.
-/
import Glossh.Lib.Text
import Glossh.Ssh.Userauth

namespace Glossh.Ssh
namespace PortAuth

open Bytes Text

/-! ## 1. The functions -/

/-- `str_len`. -/
def strLen : Bytes → Option ℕ
  | [] => none
  | c :: s => if c = 0 then some 0 else (strLen s).map (· + 1)

/-- `str_start(s, t)`. -/
def strStart : Bytes → Bytes → Option Bool
  | _, [] => none
  | s, x :: t =>
    if x = 0 then some true
    else match s with
      | [] => none
      | y :: s => if x ≠ y then some false else strStart s t

/-- `findnameandkey`; the pointer `x` moves on along the text. -/
def findnameandkey (keyname key x : Bytes) : Option Bool := do
  let start ← strStart x keyname
  if !start then return false
  else do
    let len ← strLen keyname
    let x := x.drop len
    let c ← x.head?
    if c ≠ 32 then return false
    else do
      let x := x.drop 1
      let start ← strStart x key
      if !start then return false
      else do
        let len ← strLen key
        let x := x.drop len
        let c ← x.head?
        return c = 32 || c = 10 || c = 13 || c = 0

/-- `sizeof(line)`. -/
def LINE_SIZE : ℕ := 512

/-- A text that `nvs_get_str` can return in `LINE_SIZE - 1` bytes with its zero. -/
structure NvsText where
  text : Bytes
  zero_notMem : 0 ∉ text
  length_le : text.length ≤ 510

def ESP_OK : ℤ := 0

/-- What `nvs_get_str` comes to: ESP_OK with a text, or another code. -/
inductive NvsGet where
  | ok (t : NvsText)
  | error (err : ℤ) (err_ne : err ≠ ESP_OK)

/-- The flash memory: the results of `nvs_open` and `nvs_get_str`. -/
structure Nvs where
  opened : Bool
  get : NvsGet

/-- `subprocess_auth`; the account is only logged. -/
def subprocessAuth (nvs : Nvs) (keyname key : Bytes) : Option ℤ :=
  if !nvs.opened then some (-1)
  else
    let line := List.replicate LINE_SIZE 0
    match nvs.get with
    | .ok t => do
      let line := overwrite line 0 (t.text ++ [0])
      let found ← findnameandkey keyname key line
      return if found then 0 else 111
    | .error _ _ => some 111

/-! ## 2. The walk over a string -/

theorem strLen_eq {s : Bytes} (h : 0 ∉ s) (m : Bytes) : strLen (s ++ 0 :: m) = some s.length := by
  induction s with
  | nil => rfl
  | cons c s ih =>
    have hc : c ≠ 0 := fun hc => h (hc ▸ List.mem_cons_self)
    rw [List.cons_append, strLen, if_neg hc, ih fun hs => h (List.mem_cons_of_mem _ hs)]
    rfl

/-- The end of `t` is reached. -/
theorem strStart_zero (s t : Bytes) : strStart s (0 :: t) = some true := by
  cases s <;> rfl

/-- **`str_start` compares up to the end of `t`** and reads no further than the end of `s`. -/
theorem strStart_eq {s t : Bytes} (ht : 0 ∉ t) (m n : Bytes) :
    strStart (s ++ 0 :: m) (t ++ 0 :: n) = some (decide (t <+: s)) := by
  induction t generalizing s with
  | nil => rw [List.nil_append, strStart_zero, decide_eq_true (List.nil_prefix)]
  | cons x t ih =>
    have hx : x ≠ 0 := fun hx => ht (hx ▸ List.mem_cons_self)
    have ht' : 0 ∉ t := fun h => ht (List.mem_cons_of_mem _ h)
    cases s with
    | nil =>
      have hno : ¬ x :: t <+: [] := fun h => by cases List.prefix_nil.mp h
      rw [List.cons_append, List.nil_append, strStart, if_neg hx, if_pos hx, decide_eq_false hno]
    | cons y s =>
      rw [List.cons_append, List.cons_append, strStart, if_neg hx]
      by_cases hxy : x = y
      · rw [if_neg (not_not.mpr hxy), ih ht']
        simp only [List.cons_prefix_cons, hxy, true_and]
      · have hno : ¬ x :: t <+: y :: s := fun h => hxy (List.cons_prefix_cons.mp h).1
        rw [if_pos hxy, decide_eq_false hno]

/-- The pointer behind a field that was found. -/
theorem drop_field (t s m : Bytes) : (t ++ s ++ 0 :: m).drop t.length = s ++ 0 :: m := by
  rw [List.append_assoc, List.drop_left]

/-- What may stand behind the key. -/
def Ends (rest : Bytes) : Prop := rest = [] ∨ rest.headD 0 ∈ ([32, 13, 10] : Bytes)

/-- The text that authorizes a key, up to what may follow. -/
def Authorizes (text keyname key : Bytes) : Prop :=
  ∃ rest, text = keyname ++ 32 :: (key ++ rest) ∧ Ends rest

/-- Where name, space and key are found, what follows decides. -/
theorem authorizes_append_iff (keyname key rest : Bytes) :
    Authorizes (keyname ++ 32 :: (key ++ rest)) keyname key ↔ Ends rest := by
  constructor
  · rintro ⟨rest', hrest, hends⟩
    have hcancel := (List.cons.inj (List.append_cancel_left hrest)).2
    rw [List.append_cancel_left hcancel]
    exact hends
  · exact fun hends => ⟨rest, rfl, hends⟩

/-- The last four comparisons. -/
theorem endsTest_eq {rest m : Bytes} (h : 0 ∉ rest) :
    ∃ found, ((rest ++ 0 :: m).head?.bind fun c =>
        some (c = 32 || c = 10 || c = 13 || c = 0 : Bool)) = some found ∧
      (found = true ↔ Ends rest) := by
  rcases rest with _ | ⟨x, rest⟩
  · exact ⟨true, rfl, iff_of_true rfl (Or.inl rfl)⟩
  · have hx : x ≠ 0 := fun hx => h (hx ▸ List.mem_cons_self)
    refine ⟨_, rfl, ?_⟩
    simp only [Ends, List.headD_cons, List.mem_cons, List.not_mem_nil, or_false, Bool.or_eq_true,
      decide_eq_true_eq, hx, reduceCtorEq, false_or]
    tauto

/-- **What `findnameandkey` finds**: it reads inside the three strings, and finds exactly the name,
one space and the key with an end behind it. -/
theorem findnameandkey_eq {keyname key text : Bytes} (hname : 0 ∉ keyname) (hkey : 0 ∉ key)
    (htext : 0 ∉ text) (m₁ m₂ m : Bytes) :
    ∃ found, findnameandkey (keyname ++ 0 :: m₁) (key ++ 0 :: m₂) (text ++ 0 :: m) = some found ∧
      (found = true ↔ Authorizes text keyname key) := by
  unfold findnameandkey
  rw [strStart_eq hname, strLen_eq hname, strLen_eq hkey]
  simp only [Option.bind_eq_bind, Option.bind_some]
  by_cases h1 : keyname <+: text
  · obtain ⟨t₁, rfl⟩ := h1
    have ht₁ : 0 ∉ t₁ := fun h => htext (List.mem_append_right _ h)
    rw [decide_eq_true (List.prefix_append _ _), drop_field]
    simp only [Bool.not_true, Bool.false_eq_true, if_false]
    rcases t₁ with _ | ⟨c, t₂⟩
    · -- the text ends with the name
      refine ⟨false, by simp, iff_of_false Bool.false_ne_true ?_⟩
      rintro ⟨rest, hrest, -⟩
      exact absurd (List.append_cancel_left hrest) (by simp)
    · simp only [List.cons_append, List.head?_cons, Option.bind_some, List.drop_succ_cons,
        List.drop_zero]
      by_cases hc : c = 32
      · subst hc
        rw [if_neg (not_not.mpr rfl), strStart_eq hkey, Option.bind_some]
        by_cases h2 : key <+: t₂
        · obtain ⟨rest, rfl⟩ := h2
          rw [decide_eq_true (List.prefix_append _ _), drop_field, authorizes_append_iff]
          exact endsTest_eq fun h => ht₁ (List.mem_cons_of_mem _ (List.mem_append_right _ h))
        · rw [decide_eq_false h2]
          refine ⟨false, rfl, iff_of_false Bool.false_ne_true ?_⟩
          rintro ⟨rest, hrest, -⟩
          have hcancel := (List.cons.inj (List.append_cancel_left hrest)).2
          exact absurd ⟨rest, hcancel.symm⟩ h2
      · rw [if_pos hc]
        refine ⟨false, rfl, iff_of_false Bool.false_ne_true ?_⟩
        rintro ⟨rest, hrest, -⟩
        exact absurd (List.cons.inj (List.append_cancel_left hrest)).1 hc
  · rw [decide_eq_false h1]
    refine ⟨false, rfl, iff_of_false Bool.false_ne_true ?_⟩
    rintro ⟨rest, rfl, -⟩
    exact h1 (List.prefix_append _ _)

/-! ## 3. Fields -/

/-- A string without the characters that end a field. -/
structure Field where
  text : Bytes
  clean : ∀ c ∈ text, c ≠ 0 ∧ c ≠ 32 ∧ c ≠ 13 ∧ c ≠ 10

theorem Field.zero_notMem (f : Field) : 0 ∉ f.text := fun h => (f.clean 0 h).1 rfl

/-- A field is what stands in front of the first character that ends one. -/
theorem Field.takeWhile_append (f : Field) {rest : Bytes} (h : Ends rest) :
    (f.text ++ rest).takeWhile (fun c => decide (c ∉ ([32, 13, 10] : Bytes))) = f.text := by
  have hall : ∀ c ∈ f.text, decide (c ∉ ([32, 13, 10] : Bytes)) = true := by
    intro c hc
    obtain ⟨-, h1, h2, h3⟩ := f.clean c hc
    simp [h1, h2, h3]
  rw [List.takeWhile_append_of_pos hall]
  rcases rest with _ | ⟨c, rest⟩
  · rw [List.takeWhile_nil, List.append_nil]
  · have hc : c ∈ ([32, 13, 10] : Bytes) := h.resolve_left (List.cons_ne_nil _ _)
    rw [List.takeWhile_cons_of_neg (by rwa [decide_eq_true_eq, not_not]), List.append_nil]

/-- **A text authorizes one name and one key.** -/
theorem fields_injective {text : Bytes} {keyname keyname' key key' : Field}
    (h : Authorizes text keyname.text key.text) (h' : Authorizes text keyname'.text key'.text) :
    keyname'.text = keyname.text ∧ key'.text = key.text := by
  obtain ⟨rest, rfl, hends⟩ := h
  obtain ⟨rest', heq, hends'⟩ := h'
  have hspace : ∀ m : Bytes, Ends (32 :: m) := fun m => Or.inr List.mem_cons_self
  have hname : keyname'.text = keyname.text := by
    rw [← keyname.takeWhile_append (hspace (key.text ++ rest)), heq,
      keyname'.takeWhile_append (hspace _)]
  rw [hname] at heq
  have hkey := (List.cons.inj (List.append_cancel_left heq)).2
  refine ⟨hname, ?_⟩
  rw [← key.takeWhile_append hends, hkey, key'.takeWhile_append hends']

/-! ## 4. `subprocess_auth` -/

/-- What `nvs_get_str` leaves in `line`. -/
theorem line_eq (t : NvsText) :
    overwrite (List.replicate LINE_SIZE 0) 0 (t.text ++ [0]) =
      t.text ++ 0 :: List.replicate (LINE_SIZE - (t.text.length + 1)) 0 := by
  rw [overwrite, List.take_zero, List.nil_append, List.length_append, List.length_singleton,
    Nat.zero_add, List.drop_replicate, List.append_assoc]
  rfl

/-- The flash memory as the model of a session has it. -/
def Nvs.toLine (nvs : Nvs) : NvsLine :=
  if !nvs.opened then .closed
  else match nvs.get with
    | .ok t => .line t.text
    | .error _ _ => .failed

/-- The comparison of whole strings finds the same. -/
theorem findnameandkey_iff_authorizes {keyname key text : Bytes} (htext : 0 ∉ text) :
    Glossh.Ssh.findnameandkey keyname key text = true ↔ Authorizes text keyname key := by
  unfold Glossh.Ssh.findnameandkey
  by_cases h1 : keyname <+: text
  · obtain ⟨t₁, rfl⟩ := h1
    rw [if_neg (by simp), List.drop_left]
    rcases t₁ with _ | ⟨c, t₂⟩
    · rw [if_pos (by decide)]
      refine iff_of_false Bool.false_ne_true ?_
      rintro ⟨rest, hrest, -⟩
      exact absurd (List.append_cancel_left hrest) (by simp)
    · by_cases hc : c = 32
      · subst hc
        have hdrop : (keyname ++ 32 :: t₂).drop (keyname.length + 1) = t₂ := by
          rw [← List.drop_drop, List.drop_left, List.drop_one, List.tail_cons]
        rw [List.headD_cons, if_neg (not_not.mpr rfl)]
        simp only [hdrop]
        by_cases h2 : key <+: t₂
        · obtain ⟨rest, rfl⟩ := h2
          rw [if_neg (by simp), List.drop_left, authorizes_append_iff]
          rcases rest with _ | ⟨x, rest⟩
          · exact iff_of_true rfl (Or.inl rfl)
          · have hx : x ≠ 0 := fun hx => htext (hx ▸ List.mem_append_right _
              (List.mem_cons_of_mem _ (List.mem_append_right _ List.mem_cons_self)))
            rw [List.headD_cons, List.contains_iff_mem, Ends]
            simp only [List.headD_cons, List.mem_cons, List.not_mem_nil, or_false, hx,
              reduceCtorEq, false_or]
            tauto
        · have hno : key.isPrefixOf t₂ = false := by
            rw [← Bool.not_eq_true, List.isPrefixOf_iff_prefix]
            exact h2
          rw [hno]
          refine iff_of_false Bool.false_ne_true ?_
          rintro ⟨rest, hrest, -⟩
          have hcancel := (List.cons.inj (List.append_cancel_left hrest)).2
          exact h2 ⟨rest, hcancel.symm⟩
      · rw [List.headD_cons, if_pos hc]
        refine iff_of_false Bool.false_ne_true ?_
        rintro ⟨rest, hrest, -⟩
        exact absurd (List.cons.inj (List.append_cancel_left hrest)).1 hc
  · have hno : keyname.isPrefixOf text = false := by
      rw [← Bool.not_eq_true, List.isPrefixOf_iff_prefix]
      exact h1
    rw [hno]
    refine iff_of_false Bool.false_ne_true ?_
    rintro ⟨rest, rfl, -⟩
    exact h1 (List.prefix_append _ _)

/-- **The walk over memory does what the session's model says.** -/
theorem subprocessAuth_eq (nvs : Nvs) {keyname key : Bytes} (hname : 0 ∉ keyname) (hkey : 0 ∉ key)
    (m₁ m₂ : Bytes) :
    subprocessAuth nvs (keyname ++ 0 :: m₁) (key ++ 0 :: m₂) =
      some (Glossh.Ssh.subprocessAuth nvs.toLine keyname key) := by
  obtain ⟨opened, get⟩ := nvs
  cases opened with
  | false => rfl
  | true =>
    cases get with
    | error err err_ne => rfl
    | ok t =>
      obtain ⟨found, hfound, hauth⟩ := findnameandkey_eq hname hkey t.zero_notMem m₁ m₂
        (List.replicate (LINE_SIZE - (t.text.length + 1)) 0)
      have hsame : found = Glossh.Ssh.findnameandkey keyname key t.text := by
        rw [Bool.eq_iff_iff, hauth, findnameandkey_iff_authorizes t.zero_notMem]
      rw [subprocessAuth]
      simp only [line_eq, hfound]
      rw [hsame]
      rfl

/-- **Whole fields only.**  Whatever the flash memory returns, `subprocess_auth` reads inside its
strings, and returns 0 exactly when the stored text is the name, one space and the key, with its end
or one of three characters behind them.  So of all keys only the stored one is authorized. -/
theorem subprocessAuth_exact (nvs : Nvs) (keyname key : Field) (m₁ m₂ : Bytes) :
    ∃ rc, subprocessAuth nvs (keyname.text ++ 0 :: m₁) (key.text ++ 0 :: m₂) = some rc ∧
      (rc = 0 ↔ nvs.opened = true ∧
        ∃ t, nvs.get = .ok t ∧ Authorizes t.text keyname.text key.text) ∧
      ∀ t, nvs.get = .ok t → ∀ keyname' key' : Field,
        Authorizes t.text keyname'.text key'.text → rc = 0 →
          keyname'.text = keyname.text ∧ key'.text = key.text := by
  have hiff : ∃ rc, subprocessAuth nvs (keyname.text ++ 0 :: m₁) (key.text ++ 0 :: m₂) = some rc ∧
      (rc = 0 ↔ nvs.opened = true ∧
        ∃ t, nvs.get = .ok t ∧ Authorizes t.text keyname.text key.text) := by
    obtain ⟨opened, get⟩ := nvs
    cases opened with
    | false => exact ⟨-1, rfl, iff_of_false (by decide) fun h => by cases h.1⟩
    | true =>
      cases get with
      | error err err_ne =>
        refine ⟨111, rfl, iff_of_false (by decide) ?_⟩
        rintro ⟨-, t, ht, -⟩
        cases ht
      | ok t =>
        obtain ⟨found, hfound, hauth⟩ := findnameandkey_eq keyname.zero_notMem key.zero_notMem
          t.zero_notMem m₁ m₂ (List.replicate (LINE_SIZE - (t.text.length + 1)) 0)
        refine ⟨if found then 0 else 111, ?_, ?_⟩
        · rw [subprocessAuth]
          simp only [line_eq, hfound]
          rfl
        · cases found with
          | true => exact iff_of_true rfl ⟨rfl, t, rfl, hauth.mp rfl⟩
          | false =>
            refine iff_of_false (by decide) ?_
            rintro ⟨-, t', ht', hauth'⟩
            cases ht'
            exact absurd (hauth.mpr hauth') Bool.false_ne_true
  obtain ⟨rc, hrc, hzero⟩ := hiff
  refine ⟨rc, hrc, hzero, fun t ht keyname' key' hstored h0 => ?_⟩
  obtain ⟨-, t', ht', hauth⟩ := hzero.mp h0
  rw [ht] at ht'
  cases ht'
  exact fields_injective hauth hstored

/-- A key that the stored one extends. -/
example : (subprocessAuth ⟨true, .ok ⟨ascii "ssh-ed25519 AAAAB me", by decide +kernel, by decide⟩⟩
    (ascii "ssh-ed25519" ++ [0]) (ascii "AAAA" ++ [0])) = some 111 := by decide +kernel

end PortAuth
end Glossh.Ssh
