import Mathlib.Order.Monotone.Basic
import Mathlib.Data.List.Forall2
import Styling.Proofs.Doubles
import Styling.Value

/-!
# Equality of values

Numbers are equal when they have the same exact value, which is none for what is no number
(`Number.same_iff`). So equality of numbers is symmetric and transitive, though not reflexive, and
with it the equality of all values is transitive (`Value.same_trans`). It is symmetric, too, where
the dictionaries have no two equal keys (`Value.HasDistinctKeys.same_symm`): each entry of one has
an equal one in the other, and if no two of them have the same, none of the others is left over.
-/

set_option autoImplicit false

namespace Styling

open Styling.Decimal

/-! ## Numbers -/

/-- The value of a number: a multiple of the smallest magnitude, or an infinity. -/
inductive Exact where
  | finite (units : Int)
  | infinite (negative : Bool)
deriving DecidableEq

/-- An integer in multiples of the smallest magnitude. -/
def exactInt (n : Int) : Exact := .finite (n * 2 ^ unitExponent)

/-- What a double is exactly; none for what is no number. -/
def exactDouble? : Double → Option Exact
  | .finite negative rank => some (.finite (if negative then -(units rank : Int) else units rank))
  | .infinite negative => some (.infinite negative)
  | .nan => none

/-- What a number is exactly. -/
def Number.exact? : Number → Option Exact
  | .flag b => some (exactInt (if b then 1 else 0))
  | .whole n => some (exactInt n)
  | .real x => exactDouble? x

theorem units_injective : Function.Injective units :=
  (strictMono_nat_of_lt_succ units_lt_succ).injective

theorem same_double_iff {x y : Double} :
    x.same y = true ↔ ∃ p, exactDouble? x = some p ∧ exactDouble? y = some p := by
  cases x with
  | finite a m =>
    cases y with
    | finite b n =>
      have hunits : m = n ↔ units m = units n := by
        rw [units_injective.eq_iff, Fin.val_inj]
      have hzero : m.val = 0 ↔ units m = 0 := by
        rw [← units_injective.eq_iff, units_of_lt (r := 0) (by decide)]
      simp only [Double.same, exactDouble?, Bool.and_eq_true, Bool.or_eq_true, decide_eq_true_eq,
        hunits, hzero]
      cases a <;> cases b <;> simp <;> omega
    | infinite b => simp [Double.same, exactDouble?]
    | nan => simp [Double.same, exactDouble?]
  | infinite a => cases y <;> simp [Double.same, exactDouble?, eq_comm]
  | nan => cases y <;> simp [Double.same, exactDouble?]

theorem isInt_iff {x : Double} {n : Int} :
    x.isInt n = true ↔ exactDouble? x = some (exactInt n) := by
  cases x with
  | finite negative rank =>
    simp only [Double.isInt, exactDouble?, exactInt, Bool.and_eq_true, Bool.or_eq_true, decide_eq_true_eq,
      Option.some.injEq, Exact.finite.injEq]
    have hpow : (2 : Int) ^ unitExponent = ((2 ^ unitExponent : Nat) : Int) := by push_cast; rfl
    have hpos : 0 < 2 ^ unitExponent := Nat.two_pow_pos _
    rw [hpow]
    generalize 2 ^ unitExponent = p at hpos
    generalize units rank = r
    obtain ⟨k, hk⟩ := Int.eq_nat_or_neg n
    have hproduct : (k : Int) * p = (k * p : Nat) := (Int.natCast_mul k p).symm
    have hzero : k * p = 0 ↔ k = 0 := by rw [Nat.mul_eq_zero]; omega
    rcases hk with rfl | rfl
    · rw [Int.natAbs_natCast, hproduct]
      cases negative <;> simp <;> omega
    · rw [Int.natAbs_neg, Int.natAbs_natCast, Int.neg_mul, hproduct]
      cases negative <;> simp <;> omega
  | infinite negative => simp [Double.isInt, exactDouble?, exactInt]
  | nan => simp [Double.isInt, exactDouble?]

theorem exactInt_eq_iff {m n : Int} : exactInt n = exactInt m ↔ m = n := by
  have hpow : (2 : Int) ^ unitExponent ≠ 0 := Int.pow_ne_zero (by decide)
  rw [exactInt, exactInt, Exact.finite.injEq, Int.mul_eq_mul_right_iff hpow, eq_comm]

/-- **Numbers are equal if they are exactly the same.** -/
theorem Number.same_iff {a b : Number} :
    a.same b = true ↔ ∃ p, a.exact? = some p ∧ b.exact? = some p := by
  cases a with
  | real x =>
    cases b with
    | real y => exact same_double_iff
    | flag | whole => simp [Number.same, Number.exact?, Number.integer?, isInt_iff]
  | flag | whole =>
    cases b with
    | real y => simp [Number.same, Number.exact?, Number.integer?, isInt_iff]
    | flag | whole => simp [Number.same, Number.exact?, Number.integer?, exactInt_eq_iff]

theorem Number.same_symm {a b : Number} (h : a.same b = true) : b.same a = true := by
  obtain ⟨p, ha, hb⟩ := Number.same_iff.1 h
  exact Number.same_iff.2 ⟨p, hb, ha⟩

theorem Number.same_trans {a b c : Number} (hab : a.same b = true) (hbc : b.same c = true) :
    a.same c = true := by
  obtain ⟨p, ha, hb⟩ := Number.same_iff.1 hab
  obtain ⟨q, hb', hc⟩ := Number.same_iff.1 hbc
  obtain rfl := Option.some.inj (hb.symm.trans hb')
  exact Number.same_iff.2 ⟨p, ha, hc⟩

/-! ## Fonts -/

theorem same_sizes_symm {a b : Option Number} (h : sameOption Number.same a b = true) :
    sameOption Number.same b a = true := by
  cases a with
  | none => cases b with
    | none => rfl
    | some b => contradiction
  | some a => cases b with
    | none => contradiction
    | some b => exact Number.same_symm h

theorem same_sizes_trans {a b c : Option Number} (hab : sameOption Number.same a b = true)
    (hbc : sameOption Number.same b c = true) : sameOption Number.same a c = true := by
  cases b with
  | none => cases a with
    | none => exact hbc
    | some a => contradiction
  | some b => cases a with
    | none => contradiction
    | some a => cases c with
      | none => contradiction
      | some c => exact Number.same_trans hab hbc

theorem Font.same_iff {f g : Font} :
    f.same g = true ↔ f.families = g.families ∧ sameOption Number.same f.size g.size = true ∧
      sameOption Number.same f.relativeSize g.relativeSize = true ∧ f.bold = g.bold ∧
      f.italic = g.italic := by
  simp only [Font.same, Bool.and_eq_true, decide_eq_true_eq, and_assoc]

theorem Font.same_symm {f g : Font} (h : f.same g = true) : g.same f = true := by
  obtain ⟨hfamilies, hsize, hrelative, hbold, hitalic⟩ := Font.same_iff.1 h
  exact Font.same_iff.2 ⟨hfamilies.symm, same_sizes_symm hsize,
    same_sizes_symm hrelative, hbold.symm, hitalic.symm⟩

theorem Font.same_trans {f g h : Font} (hfg : f.same g = true) (hgh : g.same h = true) :
    f.same h = true := by
  obtain ⟨hfamilies, hsize, hrelative, hbold, hitalic⟩ := Font.same_iff.1 hfg
  obtain ⟨hfamilies', hsize', hrelative', hbold', hitalic'⟩ := Font.same_iff.1 hgh
  exact Font.same_iff.2 ⟨hfamilies.trans hfamilies', same_sizes_trans hsize hsize',
    same_sizes_trans hrelative hrelative', hbold.trans hbold',
    hitalic.trans hitalic'⟩

/-! ## Values of each form -/

theorem Value.same_iff_of_number {v w : Value} {a : Number} (hv : v.number? = some a) :
    v.same w = true ↔ ∃ b, w.number? = some b ∧ a.same b = true := by
  cases v <;> simp only [Value.number?, Option.some.injEq, reduceCtorEq] at hv <;> subst hv <;>
    cases w <;> simp [Value.same, Value.sameAtom, Value.number?]

/-- A value that is no number and holds no others. -/
def Value.isPlain : Value → Bool
  | .null | .text _ | .color _ | .insets _ | .dimension _ | .foreign _ => true
  | _ => false

theorem Value.same_iff_of_isPlain {v w : Value} (hv : v.isPlain = true) :
    v.same w = true ↔ v = w := by
  cases v <;> simp only [Value.isPlain, Bool.false_eq_true] at hv <;>
    cases w <;> simp [Value.same, Value.sameAtom, Value.number?]

theorem Value.same_font_iff {f : Font} {w : Value} :
    (Value.font f).same w = true ↔ ∃ g, w = .font g ∧ f.same g = true := by
  cases w <;> simp [Value.same, Value.sameAtom, Value.number?]

theorem Value.sameAll_iff {xs ys : List Value} :
    Value.sameAll xs ys = true ↔ List.Forall₂ (fun x y => x.same y = true) xs ys := by
  induction xs generalizing ys with
  | nil => cases ys <;> simp [Value.sameAll]
  | cons x xs ih => cases ys <;> simp [Value.sameAll, ih]

theorem Value.entriesIn_iff {es fs : List (Value × Value)} :
    Value.entriesIn es fs = true ↔
      ∀ e ∈ es, ∃ f ∈ fs, e.1.same f.1 = true ∧ e.2.same f.2 = true := by
  induction es with
  | nil => simp [Value.entriesIn]
  | cons e es ih => simp [Value.entriesIn, ih]

theorem Value.same_list_iff {xs : List Value} {w : Value} :
    (Value.list xs).same w = true ↔
      ∃ ys, w = .list ys ∧ List.Forall₂ (fun x y => x.same y = true) xs ys := by
  cases w <;> simp [Value.same, Value.sameAtom, Value.number?, Value.sameAll_iff]

theorem Value.same_tuple_iff {xs : List Value} {w : Value} :
    (Value.tuple xs).same w = true ↔
      ∃ ys, w = .tuple ys ∧ List.Forall₂ (fun x y => x.same y = true) xs ys := by
  cases w <;> simp [Value.same, Value.sameAtom, Value.number?, Value.sameAll_iff]

theorem Value.same_dict_iff {es : List (Value × Value)} {w : Value} :
    (Value.dict es).same w = true ↔ ∃ fs, w = .dict fs ∧ es.length = fs.length ∧
      ∀ e ∈ es, ∃ f ∈ fs, e.1.same f.1 = true ∧ e.2.same f.2 = true := by
  cases w <;> simp [Value.same, Value.sameAtom, Value.number?, Value.entriesIn_iff]

/-- Induction over a value and all that it holds. -/
theorem Value.induction {P : Value → Prop} (number : ∀ v a, v.number? = some a → P v)
    (plain : ∀ v, v.isPlain = true → P v) (font : ∀ f, P (.font f))
    (list : ∀ xs, (∀ x ∈ xs, P x) → P (.list xs))
    (tuple : ∀ xs, (∀ x ∈ xs, P x) → P (.tuple xs))
    (dict : ∀ es, (∀ e ∈ es, P e.1 ∧ P e.2) → P (.dict es)) (v : Value) : P v :=
  match v with
  | .flag b => number _ (.flag b) rfl
  | .whole n => number _ (.whole n) rfl
  | .real x => number _ (.real x) rfl
  | .null => plain _ rfl
  | .text _ => plain _ rfl
  | .color _ => plain _ rfl
  | .insets _ => plain _ rfl
  | .dimension _ => plain _ rfl
  | .foreign _ => plain _ rfl
  | .font f => font f
  | .list xs => list xs fun x _ => Value.induction number plain font list tuple dict x
  | .tuple xs => tuple xs fun x _ => Value.induction number plain font list tuple dict x
  | .dict es => dict es fun e he =>
    have _hlt : sizeOf e < sizeOf es := List.sizeOf_lt_of_mem he
    have _hparts : sizeOf e = 1 + sizeOf e.1 + sizeOf e.2 := rfl
    ⟨Value.induction number plain font list tuple dict e.1,
      Value.induction number plain font list tuple dict e.2⟩

/-! ## Equality is transitive -/

theorem forall₂_same_trans {xs : List Value}
    (h : ∀ x ∈ xs, ∀ y z, x.same y = true → y.same z = true → x.same z = true) {ys zs : List Value}
    (hxy : List.Forall₂ (fun x y => x.same y = true) xs ys)
    (hyz : List.Forall₂ (fun x y => x.same y = true) ys zs) :
    List.Forall₂ (fun x y => x.same y = true) xs zs := by
  induction hxy generalizing zs with
  | nil => exact hyz
  | @cons x y xs ys hx _ ih =>
    obtain ⟨z, zs, hy, hrest, rfl⟩ := List.forall₂_cons_left_iff.1 hyz
    exact .cons (h x List.mem_cons_self y z hx hy)
      (ih (fun x hx => h x (List.mem_cons_of_mem _ hx)) hrest)

/-- **Equality of values is transitive.** -/
theorem Value.same_trans {u v w : Value} (huv : u.same v = true) (hvw : v.same w = true) :
    u.same w = true := by
  induction u using Value.induction generalizing v w with
  | number u a hu =>
    obtain ⟨b, hv, hab⟩ := (Value.same_iff_of_number hu).1 huv
    obtain ⟨c, hw, hbc⟩ := (Value.same_iff_of_number hv).1 hvw
    exact (Value.same_iff_of_number hu).2 ⟨c, hw, Number.same_trans hab hbc⟩
  | plain u hu =>
    obtain rfl := (Value.same_iff_of_isPlain hu).1 huv
    exact hvw
  | font f =>
    obtain ⟨g, rfl, hfg⟩ := Value.same_font_iff.1 huv
    obtain ⟨h, rfl, hgh⟩ := Value.same_font_iff.1 hvw
    exact Value.same_font_iff.2 ⟨h, rfl, Font.same_trans hfg hgh⟩
  | list xs ih =>
    obtain ⟨ys, rfl, hxy⟩ := Value.same_list_iff.1 huv
    obtain ⟨zs, rfl, hyz⟩ := Value.same_list_iff.1 hvw
    exact Value.same_list_iff.2 ⟨zs, rfl,
      forall₂_same_trans (fun x hx y z hy hz => ih x hx hy hz) hxy hyz⟩
  | tuple xs ih =>
    obtain ⟨ys, rfl, hxy⟩ := Value.same_tuple_iff.1 huv
    obtain ⟨zs, rfl, hyz⟩ := Value.same_tuple_iff.1 hvw
    exact Value.same_tuple_iff.2 ⟨zs, rfl,
      forall₂_same_trans (fun x hx y z hy hz => ih x hx hy hz) hxy hyz⟩
  | dict es ih =>
    obtain ⟨fs, rfl, hlen, hef⟩ := Value.same_dict_iff.1 huv
    obtain ⟨gs, rfl, hlen', hfg⟩ := Value.same_dict_iff.1 hvw
    refine Value.same_dict_iff.2 ⟨gs, rfl, hlen.trans hlen', fun e he => ?_⟩
    obtain ⟨f, hf, hkey, hvalue⟩ := hef e he
    obtain ⟨g, hg, hkey', hvalue'⟩ := hfg f hf
    exact ⟨g, hg, (ih e he).1 hkey hkey', (ih e he).2 hvalue hvalue'⟩

/-! ## Distinct keys -/

/-- No dictionary in the value, nor the value itself if it is one, has two equal keys. -/
inductive Value.HasDistinctKeys : Value → Prop where
  | number {v : Value} {a : Number} (h : v.number? = some a) : HasDistinctKeys v
  | plain {v : Value} (h : v.isPlain = true) : HasDistinctKeys v
  | font (f : Font) : HasDistinctKeys (.font f)
  | list {xs : List Value} (h : ∀ x ∈ xs, HasDistinctKeys x) : HasDistinctKeys (.list xs)
  | tuple {xs : List Value} (h : ∀ x ∈ xs, HasDistinctKeys x) : HasDistinctKeys (.tuple xs)
  | dict {es : List (Value × Value)} (hk : ∀ e ∈ es, HasDistinctKeys e.1)
      (hv : ∀ e ∈ es, HasDistinctKeys e.2)
      (hd : es.Pairwise fun e f => e.1.same f.1 = false) : HasDistinctKeys (.dict es)

theorem mem_putEntry {key value : Value} {es : List (Value × Value)} {f : Value × Value}
    (h : f ∈ Value.putEntry key value es) :
    f.1 ∈ key :: es.map Prod.fst ∧ f.2 ∈ value :: es.map Prod.snd := by
  induction es with
  | nil => simp_all [Value.putEntry]
  | cons e es ih =>
    obtain ⟨k, v⟩ := e
    rw [Value.putEntry] at h
    -- An equal key takes the new value, and the others stay.
    split at h
    · rcases List.mem_cons.1 h with rfl | hf
      · simp
      · simp [List.mem_map_of_mem hf]
    · rcases List.mem_cons.1 h with rfl | hf
      · simp
      · have := ih hf
        simp only [List.map_cons, List.mem_cons] at this ⊢
        tauto

theorem pairwise_putEntry {key value : Value} {es : List (Value × Value)}
    (h : es.Pairwise fun e f => e.1.same f.1 = false) :
    (Value.putEntry key value es).Pairwise fun e f => e.1.same f.1 = false := by
  induction es with
  | nil => exact List.pairwise_singleton _ _
  | cons e es ih =>
    obtain ⟨k, v⟩ := e
    obtain ⟨hk, hes⟩ := List.pairwise_cons.1 h
    rw [Value.putEntry]
    split
    · exact List.pairwise_cons.2 ⟨hk, hes⟩
    · next hne =>
      refine List.pairwise_cons.2 ⟨fun f hf => ?_, ih hes⟩
      rcases List.mem_cons.1 (mem_putEntry hf).1 with heq | hmem
      · rw [heq]
        exact Bool.eq_false_iff.2 hne
      · obtain ⟨e, he, heq⟩ := List.mem_map.1 hmem
        rw [← heq]
        exact hk e he

/-- Every dictionary that is made of pairs has distinct keys. -/
theorem Value.hasDistinctKeys_ofEntries {pairs : List (Value × Value)}
    (h : ∀ e ∈ pairs, e.1.HasDistinctKeys ∧ e.2.HasDistinctKeys) :
    (Value.ofEntries pairs).HasDistinctKeys := by
  -- The entries set so far are like those of a dictionary with distinct keys.
  have hfold : ∀ es : List (Value × Value), (∀ e ∈ es, e.1.HasDistinctKeys ∧ e.2.HasDistinctKeys) →
      (es.Pairwise fun e f => e.1.same f.1 = false) →
      (Value.dict (pairs.foldl (fun es e => Value.putEntry e.1 e.2 es) es)).HasDistinctKeys := by
    induction pairs with
    | nil => exact fun es hes hd => .dict (fun e he => (hes e he).1) (fun e he => (hes e he).2) hd
    | cons p pairs ih =>
      intro es hes hd
      obtain ⟨hkey, hvalue⟩ := h p List.mem_cons_self
      refine ih (fun e he => h e (List.mem_cons_of_mem _ he)) _ ?_ (pairwise_putEntry hd)
      intro f hf
      obtain ⟨hk, hv⟩ := mem_putEntry hf
      have hkeys : ∀ k ∈ p.1 :: es.map Prod.fst, k.HasDistinctKeys :=
        List.forall_mem_cons.2 ⟨hkey, List.forall_mem_map.2 fun e he => (hes e he).1⟩
      have hvalues : ∀ v ∈ p.2 :: es.map Prod.snd, v.HasDistinctKeys :=
        List.forall_mem_cons.2 ⟨hvalue, List.forall_mem_map.2 fun e he => (hes e he).2⟩
      exact ⟨hkeys _ hk, hvalues _ hv⟩
  exact hfold [] (fun e he => absurd he List.not_mem_nil) .nil

/-- If each of some items is related to one of as many others, and no two to the same one, then
each of the others is related to one of the items. -/
theorem exists_of_pairwise_apart {α β : Type} {R : α → β → Prop} {as : List α} {bs : List β}
    (hlen : as.length = bs.length) (h : ∀ a ∈ as, ∃ b ∈ bs, R a b)
    (hapart : as.Pairwise fun a a' => ∀ b, R a b → ¬R a' b) : ∀ b ∈ bs, ∃ a ∈ as, R a b := by
  induction as generalizing bs with
  | nil =>
    intro b hb
    rw [List.length_nil, eq_comm, List.length_eq_zero_iff] at hlen
    rw [hlen] at hb
    contradiction
  | cons a as ih =>
    obtain ⟨b, hb, hab⟩ := h a List.mem_cons_self
    obtain ⟨before, after, rfl⟩ := List.append_of_mem hb
    obtain ⟨ha, has⟩ := List.pairwise_cons.1 hapart
    -- What is left of both lists is related in the same way.
    have hrest : ∀ c ∈ before ++ after, ∃ d ∈ as, R d c := by
      refine ih (by simp at hlen ⊢; omega) (fun d hd => ?_) has
      obtain ⟨c, hc, hdc⟩ := h d (List.mem_cons_of_mem a hd)
      have hne : c ≠ b := by
        rintro rfl
        exact ha d hd c hab hdc
      refine ⟨c, ?_, hdc⟩
      simpa [hne] using hc
    intro c hc
    by_cases hcb : c = b
    · exact ⟨a, List.mem_cons_self, hcb ▸ hab⟩
    · obtain ⟨d, hd, hdc⟩ := hrest c (by simpa [hcb] using hc)
      exact ⟨d, List.mem_cons_of_mem a hd, hdc⟩

theorem forall₂_same_symm {xs ys : List Value}
    (h : ∀ x ∈ xs, ∀ y, x.same y = true → y.same x = true)
    (hxy : List.Forall₂ (fun x y => x.same y = true) xs ys) :
    List.Forall₂ (fun x y => x.same y = true) ys xs := by
  induction hxy with
  | nil => exact .nil
  | @cons x y xs ys hx _ ih =>
    exact .cons (h x List.mem_cons_self y hx) (ih fun x hx => h x (List.mem_cons_of_mem _ hx))

/-- **Equality is symmetric for values with distinct keys.** -/
theorem Value.HasDistinctKeys.same_symm {v w : Value} (hv : v.HasDistinctKeys)
    (h : v.same w = true) : w.same v = true := by
  induction hv generalizing w with
  | @number v a hv =>
    obtain ⟨b, hw, hab⟩ := (Value.same_iff_of_number hv).1 h
    exact (Value.same_iff_of_number hw).2 ⟨a, hv, Number.same_symm hab⟩
  | plain hv =>
    obtain rfl := (Value.same_iff_of_isPlain hv).1 h
    exact h
  | font f =>
    obtain ⟨g, rfl, hfg⟩ := Value.same_font_iff.1 h
    exact Value.same_font_iff.2 ⟨f, rfl, Font.same_symm hfg⟩
  | @list xs _ ih =>
    obtain ⟨ys, rfl, hxy⟩ := Value.same_list_iff.1 h
    exact Value.same_list_iff.2 ⟨xs, rfl, forall₂_same_symm (fun x hx y => ih x hx) hxy⟩
  | @tuple xs _ ih =>
    obtain ⟨ys, rfl, hxy⟩ := Value.same_tuple_iff.1 h
    exact Value.same_tuple_iff.2 ⟨xs, rfl, forall₂_same_symm (fun x hx y => ih x hx) hxy⟩
  | @dict es _ _ hd ihk ihv =>
    obtain ⟨fs, rfl, hlen, hef⟩ := Value.same_dict_iff.1 h
    refine Value.same_dict_iff.2 ⟨es, rfl, hlen.symm, fun f hf => ?_⟩
    -- Two entries with one equal key would have equal keys themselves.
    have hapart : es.Pairwise fun e e' => ∀ f : Value × Value,
        (e.1.same f.1 = true ∧ e.2.same f.2 = true) →
          ¬(e'.1.same f.1 = true ∧ e'.2.same f.2 = true) := by
      refine hd.imp_of_mem fun he he' hne f hef hef' => ?_
      rw [Value.same_trans hef.1 (ihk _ he' hef'.1)] at hne
      contradiction
    obtain ⟨e, he, hkey, hvalue⟩ := exists_of_pairwise_apart hlen hef hapart f hf
    exact ⟨e, he, ihk e he hkey, ihv e he hvalue⟩

end Styling
