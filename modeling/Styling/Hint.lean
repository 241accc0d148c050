import Styling.Kind

/-!
# Type hints

The declared type of a slot. A hint accepts a value or not; what it cannot check it accepts.
A union accepts what one of its arms accepts (`accepts_union`).

Every check of a value gives an answer. Types that fail when they are asked about a value are not
represented: protocols that cannot be checked while a program runs, typed dictionaries, and classes
with a check of their own.
-/

namespace Styling

inductive Hint where
  /-- Every value. -/
  | any
  /-- No value but null, as the value null itself declares it. -/
  | null
  | kind (k : Kind)
  /-- A type variable. -/
  | variable (name : String)
  /-- A form of types that lacks its arguments. -/
  | form (name : String)
  /-- One of the arms. A union is formed if a form has built it, and not a bar between classes. -/
  | union (formed : Bool) (arms : List Hint)
  /-- One of some values. A member that is no value equals none. -/
  | literal (members : List Hint)
  /-- A container kind with types for its contents. -/
  | container (k : Kind) (contents : List Hint)
  | final (hint : Hint)
  | classVariable (hint : Hint)
  | annotated (hint : Hint) (notes : List Hint)
  /-- A type that is known by its name only. -/
  | forward (name : String)
  | ellipsis
  /-- An object of the language that is no value, with its class and how it is written. -/
  | object (className text : String)
  /-- Some other object in the place of a type. -/
  | other (v : Value)
  /-- Several hints in the place of a type. -/
  | tuple (items : List Hint)
  | list (items : List Hint)

instance : Inhabited Hint := ⟨.any⟩

/-! ## Values in the place of types -/

mutual

/-- A value in the place of a type. -/
def Hint.ofValue : Value → Hint
  | .null => .null
  | .tuple items => .tuple (Hint.ofValues items)
  | .list items => .list (Hint.ofValues items)
  | v => .other v

def Hint.ofValues : List Value → List Hint
  | [] => []
  | v :: vs => Hint.ofValue v :: Hint.ofValues vs

end

mutual

/-- The value that stands in the place of a type. -/
def Hint.toValue? : Hint → Option Value
  | .null => some .null
  | .other v => some v
  | .tuple items => (Hint.toValues? items).map .tuple
  | .list items => (Hint.toValues? items).map .list
  | _ => none

def Hint.toValues? : List Hint → Option (List Value)
  | [] => some []
  | h :: hs =>
    match h.toValue?, Hint.toValues? hs with
    | some v, some vs => some (v :: vs)
    | _, _ => none

end

mutual

theorem Hint.toValue?_ofValue (v : Value) : (Hint.ofValue v).toValue? = some v := by
  cases v with
  | tuple items => simp [Hint.ofValue, Hint.toValue?, Hint.toValues?_ofValues items]
  | list items => simp [Hint.ofValue, Hint.toValue?, Hint.toValues?_ofValues items]
  | _ => rfl

theorem Hint.toValues?_ofValues (vs : List Value) :
    Hint.toValues? (Hint.ofValues vs) = some vs := by
  cases vs with
  | nil => rfl
  | cons v vs =>
    simp [Hint.ofValues, Hint.toValues?, Hint.toValue?_ofValue v, Hint.toValues?_ofValues vs]

end

/-! ## Acceptance -/

/-- A class as a declared type. A float slot also takes integers, but no truth values. -/
def Kind.accepts (k : Kind) (v : Value) : Bool :=
  k.admits v || (k = .float && v.kind = .int)

mutual

/-- The value may be stored where the hint is declared. -/
def Hint.accepts : Hint → Value → Bool
  | .null, v => v.kind = .null
  | .kind k, v => k.accepts v
  | .union _ arms, v => Hint.anyAccepts arms v
  | .literal members, v => members.any fun m => m.toValue?.any fun w => w.same v
  | .container k _, v => k.admits v
  | .annotated _ _, _ => false
  | .any, _ => true
  | .variable _, _ => true
  | .form _, _ => true
  | .final _, _ => true
  | .classVariable _, _ => true
  | .forward _, _ => true
  | .ellipsis, _ => true
  | .object _ _, _ => true
  | .other _, _ => true
  | .tuple _, _ => true
  | .list _, _ => true

/-- One of the hints accepts the value. -/
def Hint.anyAccepts : List Hint → Value → Bool
  | [], _ => false
  | h :: hs, v => Hint.accepts h v || Hint.anyAccepts hs v

end

theorem Hint.anyAccepts_iff {hs : List Hint} {v : Value} :
    Hint.anyAccepts hs v = true ↔ ∃ h ∈ hs, h.accepts v = true := by
  induction hs with
  | nil => simp [Hint.anyAccepts]
  | cons h hs ih => simp [Hint.anyAccepts, ih]

theorem Hint.accepts_union {formed : Bool} {arms : List Hint} {v : Value} :
    (Hint.union formed arms).accepts v = true ↔ ∃ h ∈ arms, h.accepts v = true :=
  Hint.anyAccepts_iff

/-! ## Equality

Unions are equal when they have the same arms and literals when they have the same values with the
same kinds, in any order. -/

/-- Values that are equal and of one kind. -/
def Value.identical (v w : Value) : Bool := v.kind = w.kind && v.same w

/-- The same values with the same kinds, in any order. -/
def sameMembers (vs ws : List Value) : Bool :=
  (vs.all fun v => ws.any v.identical) && ws.all fun w => vs.any w.identical

mutual

def Hint.same : Hint → Hint → Bool
  | .any, .any => true
  | .null, .null => true
  | .kind j, .kind k => j = k
  | .variable m, .variable n => m = n
  | .form m, .form n => m = n
  | .union _ hs, .union _ gs => Hint.allIn hs gs && gs.all fun g => Hint.hasSame hs g
  | .literal hs, .literal gs =>
    match Hint.toValues? hs, Hint.toValues? gs with
    | some vs, some ws => sameMembers vs ws
    | _, _ => Hint.sameAll hs gs
  | .container j hs, .container k gs => j = k && Hint.sameAll hs gs
  | .final h, .final g => Hint.same h g
  | .classVariable h, .classVariable g => Hint.same h g
  | .annotated h ms, .annotated g ns => Hint.same h g && Hint.sameAll ms ns
  | .forward m, .forward n => m = n
  | .ellipsis, .ellipsis => true
  | .object _ s, .object _ t => s = t
  | .other v, .other w => v.same w
  | .tuple hs, .tuple gs => Hint.sameAll hs gs
  | .list hs, .list gs => Hint.sameAll hs gs
  | _, _ => false

/-- Equality one by one. -/
def Hint.sameAll : List Hint → List Hint → Bool
  | [], [] => true
  | h :: hs, g :: gs => Hint.same h g && Hint.sameAll hs gs
  | _, _ => false

/-- Each hint has an equal one among others. -/
def Hint.allIn : List Hint → List Hint → Bool
  | [], _ => true
  | h :: hs, gs => (gs.any fun g => Hint.same h g) && Hint.allIn hs gs

/-- One of the hints equals another one. -/
def Hint.hasSame : List Hint → Hint → Bool
  | [], _ => false
  | h :: hs, g => Hint.same h g || Hint.hasSame hs g

end

/-! ## Hashes

Sets tell their members apart by hashes. A list or a dictionary has none, and nothing has one that
holds a list or a dictionary. -/

mutual

/-- The kind that keeps a value from having a hash: that of the first list or dictionary in it. -/
def Value.unhashable? : Value → Option Kind
  | .list _ => some .list
  | .dict _ => some .dict
  | .tuple items => Value.firstUnhashable? items
  | _ => none

def Value.firstUnhashable? : List Value → Option Kind
  | [] => none
  | v :: vs => v.unhashable?.or (Value.firstUnhashable? vs)

end

mutual

/-- The kind that keeps a hint from having a hash. -/
def Hint.unhashable? : Hint → Option Kind
  | .union _ arms => Hint.firstUnhashable? arms
  | .literal members => Hint.firstUnhashable? members
  | .container _ contents => Hint.firstUnhashable? contents
  | .final h => h.unhashable?
  | .classVariable h => h.unhashable?
  | .annotated h notes => h.unhashable?.or (Hint.firstUnhashable? notes)
  | .other v => v.unhashable?
  | .tuple items => Hint.firstUnhashable? items
  | .list _ => some .list
  | _ => none

def Hint.firstUnhashable? : List Hint → Option Kind
  | [] => none
  | h :: hs => h.unhashable?.or (Hint.firstUnhashable? hs)

end

/-! ## Literal types -/

/-- The first of every group of equal items. -/
def distinctBy {α : Type} (same : α → α → Bool) (xs : List α) : List α :=
  xs.foldl (fun kept x => if kept.any (same x) then kept else kept ++ [x]) []

/-- Members of a literal type that are equal and of one kind. -/
def Hint.identical (h g : Hint) : Bool :=
  match h.toValue?, g.toValue? with
  | some v, some w => v.identical w
  | none, none => h.same g
  | _, _ => false

/-- The literal type of some members, without repetitions. Unless all members have a hash, they are
not compared. -/
def Hint.literalOf (members : List Hint) : Hint :=
  .literal (if (Hint.firstUnhashable? members).isSome then members
    else distinctBy Hint.identical members)

end Styling
