import Hydration.Text.Quoted
import Hydration.Proofs.Text.Blank
/-!
# Closed strings

A body that is scanned up to a quote is scanned so in front of every text (`IsBody`), so a text in
which each quote outside strings opens a string that is closed (`Closed`) can be taken apart piece
by piece: the same way by everything that reads it.

* `isBody_of_scan`: what was scanned once is always scanned alike.
* `Closed.append`: closed texts stay closed side by side.
* `Closed.unbroken`: without line feeds, strings are the same with and without `breaks`.
-/
namespace Hydration.Text

namespace Quoted

variable {breaks : Bool} {q : Char}

/-- A text between two quotes of a string. -/
def IsBody (breaks : Bool) (q : Char) (body : Text) : Prop :=
  ∀ rest, scan breaks q (body ++ q :: rest) = some (body, rest)

theorem isBody_nil (breaks : Bool) (hq : q ≠ '\\') : IsBody breaks q [] := by
  intro rest
  rw [List.nil_append, scan_cons fun _ _ h _ => hq h, if_pos rfl]

theorem isBody_escape {c : Char} {body : Text} (hc : (c = '\n' && !breaks) = false)
    (h : IsBody breaks q body) : IsBody breaks q ('\\' :: c :: body) := by
  intro rest
  simp only [List.cons_append, scan_escape, hc]
  simp [h rest]

theorem isBody_cons {c : Char} {body : Text} (hc : c ≠ '\\') (hq : c ≠ q)
    (h : IsBody breaks q body) : IsBody breaks q (c :: body) := by
  intro rest
  rw [List.cons_append, scan_cons fun _ _ h _ => hc h, if_neg hq, h rest]
  rfl

theorem isBody_of_scan (hq : q ≠ '\\') {t body after : Text}
    (h : scan breaks q t = some (body, after)) : IsBody breaks q body := by
  fun_induction scan breaks q t generalizing body after with
  | case1 => cases h
  | case2 => cases h
  | case3 c rest hc ih =>
    obtain ⟨⟨b, a⟩, hs, he⟩ := Option.map_eq_some_iff.1 h
    simp only [Prod.mk.injEq] at he
    obtain ⟨rfl, rfl⟩ := he
    exact isBody_escape (by simpa using hc) (ih hs)
  | case4 rest hrest =>
    simp only [Option.some.injEq, Prod.mk.injEq] at h
    obtain ⟨rfl, rfl⟩ := h
    exact isBody_nil breaks hq
  | case5 c rest hrest hne ih =>
    obtain ⟨⟨b, a⟩, hs, he⟩ := Option.map_eq_some_iff.1 h
    simp only [Prod.mk.injEq] at he
    obtain ⟨rfl, rfl⟩ := he
    refine isBody_cons ?_ hne (ih hs)
    -- a backslash that takes no character with it is the last one, and closes nothing
    rintro rfl
    cases rest with
    | nil => cases hs
    | cons d rest => exact hrest d rest rfl rfl

/-! ## With line feeds and without -/

theorem scan_false {t : Text} {r : Text × Text} (ht : '\n' ∉ t) (h : scan true q t = some r) :
    scan false q t = some r := by
  fun_induction scan true q t generalizing r with
  | case1 => cases h
  | case2 c rest hc => simp at hc
  | case3 c rest hc ih =>
    have hne : c ≠ '\n' := fun hn => ht (by simp [hn])
    have hrest : '\n' ∉ rest := fun hn => ht (by simp [hn])
    obtain ⟨r', hs, rfl⟩ := Option.map_eq_some_iff.1 h
    rw [scan_escape, ih hrest hs]
    simp [hne]
  | case4 rest hrest =>
    rw [scan_cons hrest, if_pos rfl]
    exact h
  | case5 c rest hrest hne ih =>
    have hmore : '\n' ∉ rest := fun hn => ht (by simp [hn])
    obtain ⟨r', hs, rfl⟩ := Option.map_eq_some_iff.1 h
    rw [scan_cons hrest, if_neg hne, ih hmore hs]
    rfl

theorem scan_true {t : Text} {r : Text × Text} (h : scan false q t = some r) :
    scan true q t = some r := by
  fun_induction scan false q t generalizing r with
  | case1 => cases h
  | case2 => cases h
  | case3 c rest hc ih =>
    obtain ⟨r', hs, rfl⟩ := Option.map_eq_some_iff.1 h
    rw [scan_escape, ih hs]
    simp
  | case4 rest hrest =>
    rw [scan_cons hrest, if_pos rfl]
    exact h
  | case5 c rest hrest hne ih =>
    obtain ⟨r', hs, rfl⟩ := Option.map_eq_some_iff.1 h
    rw [scan_cons hrest, if_neg hne, ih hs]
    rfl

theorem IsBody.anyBreaks {body : Text} (h : IsBody false q body) (breaks : Bool) :
    IsBody breaks q body := by
  cases breaks with
  | false => exact h
  | true => exact fun rest => scan_true (h rest)

theorem IsBody.unbroken {body : Text} (hq : q ≠ '\\') (hn : q ≠ '\n') (hbody : '\n' ∉ body)
    (h : IsBody true q body) : IsBody false q body := by
  have hs : scan false q (body ++ [q]) = some (body, []) := by
    refine scan_false ?_ (h [])
    simp [hbody, Ne.symm hn]
  exact isBody_of_scan hq hs

theorem ne_of_isQuote (hq : isQuote q = true) {c : Char} (hc : isQuote c = false) : q ≠ c := by
  rintro rfl
  rw [hq] at hc
  cases hc

/-! ## Written strings -/

/-- What is written between the quotes is the body of a string. -/
theorem isBody_encode (breaks : Bool) (hq : isQuote q = true) (t : Text) :
    IsBody breaks q (t.flatMap fun c => if c = q ∨ c = '\\' then ['\\', c] else [c]) := by
  induction t with
  | nil => exact isBody_nil breaks (ne_of_isQuote hq (by decide))
  | cons c rest ih =>
    rw [List.flatMap_cons]
    split
    · rename_i hc
      refine isBody_escape ?_ ih
      have hn : c ≠ '\n' := by
        rcases hc with rfl | rfl
        · exact ne_of_isQuote hq (by decide)
        · decide
      simp [hn]
    · rename_i hc
      rw [not_or] at hc
      exact isBody_cons hc.2 hc.1 ih

/-! ## Closed texts -/

/-- Every quote outside strings opens a string that is closed. -/
inductive Closed (breaks : Bool) : Text → Prop
  | nil : Closed breaks []
  | string {q : Char} {body rest : Text} (hq : isQuote q = true) (hb : IsBody breaks q body)
    (h : Closed breaks rest) : Closed breaks (q :: (body ++ q :: rest))
  | char {c : Char} {rest : Text} (hc : isQuote c = false) (h : Closed breaks rest) :
    Closed breaks (c :: rest)

theorem Closed.append {a b : Text} (ha : Closed breaks a) (hb : Closed breaks b) :
    Closed breaks (a ++ b) := by
  induction ha with
  | nil => exact hb
  | string hq hbody _ ih =>
    simp only [List.cons_append, List.append_assoc]
    exact .string hq hbody ih
  | char hc _ ih => exact .char hc ih

theorem Closed.unbroken {t : Text} (h : Closed true t) (ht : '\n' ∉ t) : Closed false t := by
  induction h with
  | nil => exact .nil
  | string hq hb _ ih =>
    simp only [List.mem_cons, List.mem_append, not_or] at ht
    exact .string hq (hb.unbroken (ne_of_isQuote hq (by decide)) (Ne.symm ht.1) ht.2.1)
      (ih ht.2.2.2)
  | char hc _ ih => exact .char hc (ih fun hn => ht (List.mem_cons_of_mem _ hn))

theorem Closed.anyBreaks {t : Text} (h : Closed false t) (breaks : Bool) : Closed breaks t := by
  induction h with
  | nil => exact .nil
  | string hq hb _ ih => exact .string hq (hb.anyBreaks breaks) ih
  | char hc _ ih => exact .char hc ih

theorem closed_of_forall {t : Text} (h : ∀ c ∈ t, isQuote c = false) : Closed breaks t := by
  induction t with
  | nil => exact .nil
  | cons c rest ih =>
    exact .char (h c List.mem_cons_self) (ih fun d hd => h d (List.mem_cons_of_mem _ hd))

theorem closed_of_all {t : Text} (h : t.all (fun c => !isQuote c) = true) : Closed breaks t :=
  closed_of_forall fun c hc => by simpa using List.all_eq_true.1 h c hc

theorem closed_encode (breaks : Bool) (hq : isQuote q = true) (t : Text) :
    Closed breaks (encode q t) :=
  .string hq (isBody_encode breaks hq t) .nil

end Quoted
end Hydration.Text
