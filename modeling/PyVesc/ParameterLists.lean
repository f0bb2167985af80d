import PyVesc.ConfigTruncation
import PyVesc.ErrorGuards

/-!
# Writing a list of parameters and reading it back

All kinds of parameters but the float that is cast properly write an integer. The writer refuses the
integers outside the range of the kind, and the reader takes the others from their bytes, so that by
induction on the list the values come back one after another.
-/

namespace PyVesc

open PyNumber

namespace ConfigParam

/-- The least and the greatest integer of a kind. -/
def range : ConfigParam → ℤ × ℤ
  | .bool => (0, 1)
  | .uInt8 => (0, 255)
  | .int8 => (-128, 127)
  | .uInt16 => (0, 65535)
  | .int16 | .double16 => (-32768, 32767)
  | .uInt32 => (0, 4294967295)
  | .int32 | .double32 | .double32Auto => (-2147483648, 2147483647)

/-- The integer to be written for a value of the kind: an integer or a truth value itself, and a
number of one of the two rounded kinds rounded half to even. -/
def whole : ConfigParam → PyVal → Option ℤ
  | .double32Auto, _ => none
  | .double16, value | .double32, value => value.number.map roundHalfEven
  | _, .bool b => some (if b then 1 else 0)
  | .bool, _ => none
  | _, .int z => some z
  | _, _ => none

end ConfigParam

/-- A parameter of one of the nine kinds that write an integer, with a value of its kind. -/
structure Parameter where
  kind : ConfigParam
  value : PyVal
  whole : ℤ
  whole_eq : kind.whole value = some whole

namespace Parameter

def entry (p : Parameter) : ConfigParam × PyVal := (p.kind, p.value)

def InRange (p : Parameter) : Prop := p.kind.range.1 ≤ p.whole ∧ p.whole ≤ p.kind.range.2

instance (p : Parameter) : Decidable p.InRange := inferInstanceAs (Decidable (_ ∧ _))

theorem kind_ne (p : Parameter) : p.kind ≠ .double32Auto := by
  intro h
  have hwhole := p.whole_eq
  rw [h] at hwhole
  cases hwhole

/-- The parameter as it is read. -/
def read (p : Parameter) : ConfigParam × PyVal := (p.kind, p.kind.ofWhole p.whole)

/-- A truth value of its kind and an integer of an integer kind stay what they are. -/
theorem read_eq_entry {p : Parameter} (h : p.kind = .bool ∨
    (p.kind ≠ .double16 ∧ p.kind ≠ .double32) ∧ ∃ z, p.value = .int z) : p.read = p.entry := by
  obtain ⟨kind, value, z, hwhole⟩ := p
  rcases h with hbool | ⟨⟨hne, hne'⟩, z', hvalue⟩
  · dsimp only at hbool
    subst hbool
    cases value with
    | bool b =>
      cases hwhole
      cases b <;> rfl
    | _ => cases hwhole
  · dsimp only at hne hne' hvalue
    subst hvalue
    cases kind with
    | bool | double32Auto => cases hwhole
    | double16 => exact absurd rfl hne
    | double32 => exact absurd rfl hne'
    | _ =>
      cases hwhole
      rfl

end Parameter

/-! ### One parameter -/

/-- The integers from `low` to `high` fit into `width` bytes. -/
def FitsWidth (width : ℕ) (signed : Bool) (low high : ℤ) : Prop :=
  (if signed then -(((256 ^ width : ℕ) : ℤ) / 2) else 0) ≤ low ∧
    high < if signed then ((256 ^ width : ℕ) : ℤ) / 2 else (256 ^ width : ℕ)

instance (width : ℕ) (signed : Bool) (low high : ℤ) : Decidable (FitsWidth width signed low high) :=
  inferInstanceAs (Decidable (_ ∧ _))

section Integers
variable {width : ℕ} {signed : Bool} {low high z : ℤ}

theorem intToBytes_int (hfits : FitsWidth width signed low high) (hlow : low ≤ z)
    (hhigh : z ≤ high) : intToBytes width signed (.int z) = .ok (BigEndian.ofInt width z) := by
  apply if_pos
  obtain ⟨hl, hh⟩ := hfits
  cases signed with
  | false =>
    simp only [Bool.false_eq_true, if_false] at hl hh ⊢
    omega
  | true =>
    simp only [if_true] at hl hh ⊢
    omega

theorem toInt_ofInt_of_fits (hwidth : width ≠ 0) (hfits : FitsWidth width signed low high)
    (hlow : low ≤ z) (hhigh : z ≤ high) :
    BigEndian.toInt signed (BigEndian.ofInt width z) = z := by
  obtain ⟨w, rfl⟩ := Nat.exists_eq_succ_of_ne_zero hwidth
  obtain ⟨hl, hh⟩ := hfits
  rw [pow_succ] at hl hh
  apply BigEndian.toInt_ofInt
  all_goals
    rw [pow_succ]
    split_ifs at hl hh ⊢ <;> omega

theorem checked_guards (message : String) (hfits : FitsWidth width signed low high) :
    Guards (if z < low ∨ high < z then .error (.valueError message)
        else intToBytes width signed (.int z))
      (low ≤ z ∧ z ≤ high) (fun bs => bs = BigEndian.ofInt width z) := by
  constructor
  · rintro ⟨hlow, hhigh⟩
    rw [if_neg (by omega), intToBytes_int hfits hlow hhigh]
    exact ⟨_, rfl, rfl⟩
  · intro h
    rw [if_pos (by omega)]
    exact ⟨message, rfl⟩

theorem serialiseInt_guards (message : String) {value : PyVal}
    (hnumber : value.number = some (z : ℚ))
    (hbytes : intToBytes width signed value = intToBytes width signed (.int z))
    (hfits : FitsWidth width signed low high) :
    Guards (serialiseInt width signed low high message value) (low ≤ z ∧ z ≤ high)
      (fun bs => bs = BigEndian.ofInt width z) := by
  have heq : serialiseInt width signed low high message value =
      if (z : ℚ) < low ∨ (high : ℚ) < z then .error (.valueError message)
      else intToBytes width signed (.int z) := by
    rw [serialiseInt, numberOf, hnumber, hbytes]
    rfl
  rw [heq]
  simp only [Int.cast_lt]
  exact checked_guards message hfits

theorem serialiseRounded_guards (message : String) {value : PyVal} {q : ℚ}
    (hnumber : value.number = some q) (hfits : FitsWidth width true low high) :
    Guards (serialiseRounded width low high message value)
      (low ≤ roundHalfEven q ∧ roundHalfEven q ≤ high)
      (fun bs => bs = BigEndian.ofInt width (roundHalfEven q)) := by
  have heq : serialiseRounded width low high message value =
      if roundHalfEven q < low ∨ high < roundHalfEven q then .error (.valueError message)
      else intToBytes width true (.int (roundHalfEven q)) := by
    rw [serialiseRounded, pyRound, numberOf, hnumber]
    rfl
  rw [heq]
  exact checked_guards message hfits

end Integers

theorem ParamBool.serialise_guards (b : Bool) :
    Guards (ParamBool.serialise (.bool b))
      (0 ≤ (if b then 1 else 0 : ℤ) ∧ (if b then 1 else 0 : ℤ) ≤ 1)
      (fun bs => bs = BigEndian.ofInt 1 (if b then 1 else 0)) := by
  constructor
  · intro _
    refine ⟨_, rfl, ?_⟩
    cases b <;> rfl
  · intro h
    cases b <;> exact absurd (by decide) h

namespace ConfigParam

theorem fitsWidth (kind : ConfigParam) :
    FitsWidth kind.width kind.signed kind.range.1 kind.range.2 := by
  cases kind <;> decide

theorem deserialise_ofInt {kind : ConfigParam} (hkind : kind ≠ .double32Auto) {z : ℤ}
    (hlow : kind.range.1 ≤ z) (hhigh : z ≤ kind.range.2) :
    kind.deserialise (BigEndian.ofInt kind.width z) = .ok (kind.ofWhole z) := by
  have hvalue := toInt_ofInt_of_fits kind.width_pos.ne' kind.fitsWidth hlow hhigh
  rw [deserialise_eq_ofWhole hkind (BigEndian.length_ofInt _ _), hvalue]

end ConfigParam

namespace Parameter

/-- An integer or a truth value of an integer kind. -/
theorem integer_of_whole {kind : ConfigParam} {value : PyVal} {z : ℤ}
    (hkind : kind ∉ [.bool, .double16, .double32, .double32Auto])
    (h : kind.whole value = some z) : value.number = some (z : ℚ) ∧
      ∀ width signed, intToBytes width signed value = intToBytes width signed (.int z) := by
  cases value with
  | int z' =>
    have hz : kind.whole (.int z') = some z' := by cases kind <;> first | rfl | simp at hkind
    rw [hz] at h
    cases h
    exact ⟨rfl, fun _ _ => rfl⟩
  | bool b =>
    have hz : kind.whole (.bool b) = some (if b then 1 else 0) := by
      cases kind <;> first | rfl | simp at hkind
    rw [hz] at h
    cases h
    exact ⟨by cases b <;> simp [PyVal.number], fun _ _ => rfl⟩
  | float q | bytes bs | str s =>
    exfalso
    cases kind <;> first | (simp at hkind; done) | cases h

theorem rounded_of_whole {kind : ConfigParam} {value : PyVal} {z : ℤ}
    (hkind : kind = .double16 ∨ kind = .double32) (h : kind.whole value = some z) :
    ∃ q, value.number = some q ∧ roundHalfEven q = z := by
  apply Option.map_eq_some_iff.mp
  rw [← h]
  rcases hkind with rfl | rfl <;> rfl

theorem serialise_guards (p : Parameter) : Guards (p.kind.serialise p.value) p.InRange
    (fun bs => bs = BigEndian.ofInt p.kind.width p.whole) := by
  obtain ⟨kind, value, z, h⟩ := p
  cases kind with
  | bool =>
    cases value with
    | bool b =>
      cases h
      exact ParamBool.serialise_guards b
    | _ => cases h
  | uInt8 | int8 | uInt16 | int16 | uInt32 | int32 =>
    obtain ⟨hnumber, hbytes⟩ := integer_of_whole (by decide) h
    exact serialiseInt_guards _ hnumber (hbytes _ _) (by decide)
  | double16 | double32 =>
    obtain ⟨q, hnumber, rfl⟩ := rounded_of_whole (by decide) h
    exact serialiseRounded_guards _ hnumber (by decide)
  | double32Auto => cases h

end Parameter

/-! ### Lists of parameters -/

theorem readParams_ofInt {p : Parameter} {params : List Parameter} (hp : p.InRange)
    {bs rest : Bytes} (hread : readParams (params.map Parameter.kind) (bs ++ rest) =
      .ok (params.map Parameter.read, rest)) :
    readParams ((p :: params).map Parameter.kind)
        (BigEndian.ofInt p.kind.width p.whole ++ bs ++ rest) =
      .ok ((p :: params).map Parameter.read, rest) := by
  have hlen := BigEndian.length_ofInt p.kind.width p.whole
  have hvalue := ConfigParam.deserialise_ofInt p.kind_ne hp.1 hp.2
  rw [List.map_cons, readParams, bufferPop, List.append_assoc, List.take_left' hlen,
    List.drop_left' hlen]
  dsimp only
  rw [hvalue, ok_bind, hread]
  rfl

theorem writeParams_guards (params : List Parameter) :
    Guards (writeParams (params.map Parameter.entry)) (∀ p ∈ params, p.InRange)
      (fun bs => readParams (params.map Parameter.kind) bs =
        .ok (params.map Parameter.read, [])) := by
  induction params with
  | nil =>
    apply (Guards.pure ([] : Bytes)).congr
    · simp
    · rintro _ rfl
      rfl
  | cons p params ih =>
    constructor
    · intro h
      obtain ⟨hp, hparams⟩ := List.forall_mem_cons.mp h
      obtain ⟨bs, hwrite, rfl⟩ := p.serialise_guards.result hp
      obtain ⟨rest, hwrites, hread⟩ := ih.result hparams
      refine ⟨BigEndian.ofInt p.kind.width p.whole ++ rest, ?_, ?_⟩
      · rw [List.map_cons, Parameter.entry, writeParams, hwrite, ok_bind, hwrites]
        rfl
      · have hall := @readParams_ofInt p params hp rest []
        rw [List.append_nil, List.append_nil] at hall
        exact hall hread
    · intro h
      rw [List.map_cons, Parameter.entry, writeParams]
      by_cases hp : p.InRange
      · obtain ⟨bs, hwrite, _⟩ := p.serialise_guards.result hp
        obtain ⟨text, hrefuse⟩ :=
          ih.refusal fun hparams => h (List.forall_mem_cons.mpr ⟨hp, hparams⟩)
        rw [hwrite, ok_bind, hrefuse]
        exact ⟨text, rfl⟩
      · obtain ⟨text, hrefuse⟩ := p.serialise_guards.refusal hp
        rw [hrefuse]
        exact ⟨text, rfl⟩

/-- A list of parameters is refused exactly for a value out of range, and otherwise comes back. -/
theorem parameters_round_trip (params : List Parameter) :
    ((∃ text, writeParams (params.map Parameter.entry) = .error (.valueError text)) ↔
      ∃ p ∈ params, ¬p.InRange) ∧
    ((∀ p ∈ params, p.InRange) → ∃ bs, writeParams (params.map Parameter.entry) = .ok bs ∧
      readParams (params.map Parameter.kind) bs = .ok (params.map Parameter.read, [])) := by
  have hguards := writeParams_guards params
  constructor
  · rw [hguards.valueError_iff]
    push Not
    rfl
  · exact hguards.result

/-- A truth value, integers of either sign and a float between two integers come back, and a byte
of 256 is refused. -/
theorem parameters_round_trip_mixed :
    (∃ bs, writeParams [(.bool, .bool true), (.uInt8, .int 200), (.int16, .int (-2)),
        (.double32, .float (5 / 2))] = .ok bs ∧
      readParams [.bool, .uInt8, .int16, .double32] bs =
        .ok ([(.bool, .bool true), (.uInt8, .int 200), (.int16, .int (-2)),
          (.double32, .float 2)], [])) ∧
    ∃ text, writeParams [(.uInt8, .int 256)] = .error (.valueError text) := by
  let inside : List Parameter := [⟨.bool, .bool true, 1, rfl⟩, ⟨.uInt8, .int 200, 200, rfl⟩,
    ⟨.int16, .int (-2), -2, rfl⟩, ⟨.double32, .float (5 / 2), 2, by decide +kernel⟩]
  let outside : Parameter := ⟨.uInt8, .int 256, 256, rfl⟩
  constructor
  · exact (parameters_round_trip inside).2 (by decide)
  · exact (parameters_round_trip [outside]).1.mpr ⟨outside, List.mem_singleton_self _, by decide⟩

end PyVesc
