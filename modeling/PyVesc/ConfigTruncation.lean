import PyVesc.ConfigRewrite

/-!
# Reading a configuration that is cut off

A reader pops what is left when its buffer runs out, and it is the parameter that has to refuse the
bytes. All kinds do so but the float that is cast properly, which takes any number of bytes for a
word.
-/

namespace PyVesc

namespace ConfigParam

def signed : ConfigParam → Bool
  | .bool | .uInt8 | .uInt16 | .uInt32 => false
  | _ => true

/-- The value of a parameter that has been read, from its integer. -/
def ofWhole : ConfigParam → ℤ → PyVal
  | .bool, z => .bool (z ≠ 0)
  | .double16, z | .double32, z => .float z
  | _, z => .int z

/-- A parameter is read from its integer, whatever bytes that comes from. -/
theorem deserialise_eq_ofWhole {kind : ConfigParam} (hkind : kind ≠ .double32Auto) {bs : Bytes}
    (hlen : bs.length = kind.width) :
    kind.deserialise bs = .ok (kind.ofWhole (BigEndian.toInt kind.signed bs)) := by
  cases kind with
  | bool =>
    apply (if_neg (not_not_intro hlen)).trans
    have hvalue : BigEndian.toInt ConfigParam.bool.signed bs = BigEndian.toNat bs :=
      BigEndian.toInt_unsigned bs
    rw [hvalue, ofWhole, StructFormat.Format.unpack]
    simp only [ne_eq, Nat.cast_eq_zero]
  | uInt8 | int8 | uInt16 | int16 | uInt32 | int32 => exact deserialiseInt_eq _ hlen
  | double16 | double32 =>
    apply (congrArg (fun v => v >>= toFloat) (deserialiseInt_eq _ hlen)).trans
    exact toFloat_toInt (hlen.trans_le (by decide))
  | double32Auto => exact absurd rfl hkind

theorem deserialise_whole {param : ConfigParam} {bs : Bytes} (hlen : bs.length = param.width) :
    ∃ v, param.deserialise bs = .ok v := by
  by_cases hkind : param = .double32Auto
  · rw [hkind]
    exact ⟨_, rfl⟩
  · exact ⟨_, deserialise_eq_ofWhole hkind hlen⟩

theorem deserialise_cut {param : ConfigParam} (hne : param ≠ .double32Auto) {bs : Bytes}
    (hlen : bs.length ≠ param.width) :
    ∃ message, param.deserialise bs = .error (.valueError message) := by
  cases param with
  | bool | uInt8 | int8 | uInt16 | int16 | uInt32 | int32 => exact ⟨_, if_pos hlen⟩
  | double16 => exact ⟨_, congrArg (fun v => v >>= toFloat) (if_pos hlen)⟩
  | double32 => exact ⟨_, congrArg (fun v => v >>= toFloat) (if_pos hlen)⟩
  | double32Auto => exact absurd rfl hne

theorem width_pos (param : ConfigParam) : 0 < param.width := by
  cases param <;> decide

end ConfigParam

/-- The buffer ends before the parameter does that has this place in the list, and the parameter
notices. -/
def Starved (kinds : List ConfigParam) (buffer : Bytes) (i : ℕ) : Prop :=
  ∃ param, kinds[i]? = some param ∧ param ≠ .double32Auto ∧
    buffer.length < configWidth (kinds.take (i + 1))

variable {kinds : List ConfigParam} {buffer : Bytes}

theorem configWidth_cons (param : ConfigParam) (kinds : List ConfigParam) :
    configWidth (param :: kinds) = param.width + configWidth kinds := rfl

theorem starved_zero (param : ConfigParam) :
    Starved (param :: kinds) buffer 0 ↔
      param ≠ .double32Auto ∧ buffer.length < param.width := by
  simp [Starved, configWidth]

/-- What starves behind the first parameter starves in what is left of the buffer. -/
theorem starved_succ (param : ConfigParam) (i : ℕ) :
    Starved (param :: kinds) buffer (i + 1) ↔ Starved kinds (buffer.drop param.width) i := by
  apply exists_congr
  intro p
  rw [List.getElem?_cons_succ]
  apply and_congr_right
  intro hp
  apply and_congr_right
  intro _
  obtain ⟨first, rest, hkinds⟩ : ∃ first rest, kinds.take (i + 1) = first :: rest := by
    cases kinds with
    | nil => cases hp
    | cons first rest => exact ⟨first, rest.take i, rfl⟩
  have hpos := first.width_pos
  rw [List.take_succ_cons, configWidth_cons, hkinds, configWidth_cons, List.length_drop]
  omega

theorem readParams_cons (param : ConfigParam) (kinds : List ConfigParam) (buffer : Bytes) :
    readParams (param :: kinds) buffer = (do
      let value ← param.deserialise (buffer.take param.width)
      let params ← readParams kinds (buffer.drop param.width)
      return ((param, value) :: params.1, params.2)) := rfl

/-- A parameter that does not notice a cut has its value. -/
theorem deserialise_ok {param : ConfigParam}
    (huncut : ¬ (param ≠ .double32Auto ∧ buffer.length < param.width)) :
    ∃ v, param.deserialise (buffer.take param.width) = .ok v := by
  by_cases hauto : param = .double32Auto
  · rw [hauto]
    exact ⟨_, rfl⟩
  · apply ConfigParam.deserialise_whole
    have hlong : ¬ buffer.length < param.width := fun h => huncut ⟨hauto, h⟩
    rw [List.length_take]
    omega

theorem exists_starved_cons {param : ConfigParam}
    (huncut : ¬ (param ≠ .double32Auto ∧ buffer.length < param.width)) :
    (∃ i, Starved (param :: kinds) buffer i) ↔
      ∃ i, Starved kinds (buffer.drop param.width) i := by
  constructor
  · rintro ⟨_ | i, hi⟩
    · exact absurd ((starved_zero param).mp hi) huncut
    · exact ⟨i, (starved_succ param i).mp hi⟩
  · rintro ⟨i, hi⟩
    exact ⟨i + 1, (starved_succ param i).mpr hi⟩

/-- A reader raises just if some parameter notices that it gets too few bytes. -/
theorem readParams_cases (kinds : List ConfigParam) (buffer : Bytes) :
    (∃ i, Starved kinds buffer i) ∧
        (∃ message, readParams kinds buffer = .error (.valueError message)) ∨
      (¬ ∃ i, Starved kinds buffer i) ∧ ∃ params, readParams kinds buffer = .ok params := by
  induction kinds generalizing buffer with
  | nil =>
      refine Or.inr ⟨?_, _, rfl⟩
      rintro ⟨i, param, hparam, _⟩
      cases hparam
  | cons param kinds ih =>
      by_cases hcut : param ≠ .double32Auto ∧ buffer.length < param.width
      · have hlen : (buffer.take param.width).length ≠ param.width := by
          rw [List.length_take]
          omega
        obtain ⟨message, hmessage⟩ := ConfigParam.deserialise_cut hcut.1 hlen
        refine Or.inl ⟨⟨0, (starved_zero param).mpr hcut⟩, message, ?_⟩
        rw [readParams_cons, hmessage]
        rfl
      · obtain ⟨v, hv⟩ := deserialise_ok hcut
        rw [exists_starved_cons hcut, readParams_cons, hv, ok_bind]
        obtain ⟨hi, message, hread⟩ | ⟨hnone, params, hread⟩ := ih (buffer.drop param.width)
        · refine Or.inl ⟨hi, message, ?_⟩
          rw [hread]
          rfl
        · refine Or.inr ⟨hnone, ⟨(param, v) :: params.1, params.2⟩, ?_⟩
          rw [hread]
          rfl

/-- A buffer, cut off wherever it may be, is refused just if one of the parameters that miss bytes
is of another kind than the float that is cast. Otherwise parameters are read from it. -/
theorem truncated_refused_iff (kinds : List ConfigParam) (buffer : Bytes) :
    ((∃ message, readParams kinds buffer = .error (.valueError message)) ↔
      ∃ i param, kinds[i]? = some param ∧ param ≠ .double32Auto ∧
        buffer.length < configWidth (kinds.take (i + 1))) ∧
    ((∃ params, readParams kinds buffer = .ok params) ↔
      ¬ ∃ message, readParams kinds buffer = .error (.valueError message)) := by
  obtain ⟨hi, message, herror⟩ | ⟨hnone, params, hread⟩ := readParams_cases kinds buffer
  · refine ⟨iff_of_true ⟨message, herror⟩ hi, iff_of_false ?_ fun h => h ⟨message, herror⟩⟩
    rintro ⟨params, hread⟩
    rw [herror] at hread
    cases hread
  · have hnever : ¬ ∃ message, readParams kinds buffer = .error (.valueError message) := by
      rintro ⟨message, herror⟩
      rw [hread] at herror
      cases herror
    exact ⟨iff_of_false hnever hnone, iff_of_true ⟨params, hread⟩ hnever⟩

/-- A float is read from one byte of four. -/
theorem truncated_accepted :
    [64].length < configWidth [ConfigParam.double32Auto] ∧
      readParams [.double32Auto] [64] =
        .ok ([(.double32Auto, .float (ParamDouble32Auto.decode 64))], []) ∧
      ¬ ∃ message, readParams [.double32Auto] [64] = .error (.valueError message) := by
  refine ⟨by decide, rfl, ?_⟩
  rintro ⟨message, h⟩
  cases h

end PyVesc
