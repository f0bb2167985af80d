import PyVesc.ConfigGenerator
import PyVesc.ConfigTruncation
import Mathlib.Data.List.DropRight

/-!
# Reading a configuration file

The generated readers over any buffer. A file with another signature is not read, and one that is
cut off is refused where a parameter notices it. The motor configuration ends with a parameter that
does, the application configuration with floats that do not.
-/

namespace PyVesc

/-! ### Files that are cut off -/

theorem configWidth_append (kinds kinds' : List ConfigParam) :
    configWidth (kinds ++ kinds') = configWidth kinds + configWidth kinds' := by
  simp only [configWidth, List.map_append, List.sum_append]

theorem configWidth_take_le (kinds : List ConfigParam) (i : ℕ) :
    configWidth (kinds.take i) ≤ configWidth kinds := by
  conv_rhs => rw [← List.take_append_drop i kinds, configWidth_append]
  exact Nat.le_add_right _ _

/-- The bytes that a reader insists on: the floats at the end of its list take what there is. -/
def checkedWidth (kinds : List ConfigParam) : ℕ :=
  configWidth (kinds.rdropWhile fun kind => kind = .double32Auto)

theorem checkedWidth_le (kinds : List ConfigParam) : checkedWidth kinds ≤ configWidth kinds := by
  obtain ⟨floats, hfloats⟩ :=
    List.rdropWhile_prefix (fun kind : ConfigParam => decide (kind = .double32Auto)) kinds
  have hsum :=
    configWidth_append (kinds.rdropWhile fun kind => decide (kind = .double32Auto)) floats
  rw [hfloats] at hsum
  rw [hsum]
  exact Nat.le_add_right _ _

theorem checkedWidth_concat (kinds : List ConfigParam) (last : ConfigParam) :
    checkedWidth (kinds ++ [last]) =
      if last = .double32Auto then checkedWidth kinds else configWidth (kinds ++ [last]) := by
  rw [checkedWidth, List.rdropWhile_concat]
  simp only [decide_eq_true_eq]
  split_ifs <;> rfl

theorem exists_starved_iff (kinds : List ConfigParam) (buffer : Bytes) :
    (∃ i, Starved kinds buffer i) ↔ buffer.length < checkedWidth kinds := by
  induction kinds using List.reverseRecOn with
  | nil =>
    apply iff_of_false
    · rintro ⟨i, param, hparam, _⟩
      cases hparam
    · exact Nat.not_lt_zero _
  | append_singleton kinds last ih =>
    have hinner : ∀ i, Starved (kinds ++ [last]) buffer i →
        Starved kinds buffer i ∨ last ≠ .double32Auto := by
      rintro i ⟨param, hparam, hne, hlen⟩
      by_cases hi : i < kinds.length
      · rw [List.getElem?_append_left hi] at hparam
        rw [List.take_append_of_le_length hi] at hlen
        exact Or.inl ⟨param, hparam, hne, hlen⟩
      · rw [List.getElem?_append_right (not_lt.mp hi), List.getElem?_singleton] at hparam
        split_ifs at hparam
        cases hparam
        exact Or.inr hne
    have houter : ∀ i, Starved kinds buffer i → Starved (kinds ++ [last]) buffer i := by
      rintro i ⟨param, hparam, hne, hlen⟩
      have hi := (List.getElem?_eq_some_iff.mp hparam).1
      refine ⟨param, ?_, hne, ?_⟩
      · rw [List.getElem?_append_left hi]
        exact hparam
      · rw [List.take_append_of_le_length hi]
        exact hlen
    rw [checkedWidth_concat]
    by_cases hlast : last = .double32Auto
    · rw [if_pos hlast, ← ih]
      constructor
      · rintro ⟨i, hi⟩
        exact ⟨i, (hinner i hi).resolve_right fun hne => hne hlast⟩
      · rintro ⟨i, hi⟩
        exact ⟨i, houter i hi⟩
    · rw [if_neg hlast]
      constructor
      · rintro ⟨i, param, _, _, hlen⟩
        exact hlen.trans_le (configWidth_take_le _ _)
      · intro hlen
        refine ⟨kinds.length, last, List.getElem?_concat_length, hlast, ?_⟩
        rw [List.take_of_length_le (by simp)]
        exact hlen

namespace NamedParam

def entry (param : NamedParam) : ConfigParam × String := (param.kind, param.name)

/-- The value of the parameter comes from these bytes. -/
def ReadFrom (param : NamedParam) (bs : Bytes) : Prop :=
  ∃ value, param.value = some value ∧ param.kind.deserialise bs = .ok value

end NamedParam

namespace ConfigFile

/-- The parameters of a file, with values from the bytes that they take from a buffer. -/
structure Contents (entries : List (ConfigParam × String)) (buffer : Bytes)
    (params : List NamedParam) : Prop where
  entry : params.map NamedParam.entry = entries
  values : List.Forall₂ (fun param field => param.kind = field.1 ∧ param.ReadFrom field.2) params
    (configFields (entries.map Prod.fst) buffer)

theorem pops_cons (kind : ConfigParam) (name : String) (entries : List (ConfigParam × String))
    (buffer : Bytes) :
    deserialise.pops ((kind, name) :: entries) buffer = (do
      let value ← kind.deserialise (buffer.take kind.width)
      let params ← deserialise.pops entries (buffer.drop kind.width)
      return (⟨kind, name, some value⟩ :: params.1, params.2)) := rfl

theorem pops_cases (entries : List (ConfigParam × String)) (buffer : Bytes) :
    (∃ i, Starved (entries.map Prod.fst) buffer i) ∧
        (∃ message, deserialise.pops entries buffer = .error (.valueError message)) ∨
      (¬ ∃ i, Starved (entries.map Prod.fst) buffer i) ∧ ∃ params,
        deserialise.pops entries buffer =
          .ok (params, buffer.drop (configWidth (entries.map Prod.fst))) ∧
        Contents entries buffer params := by
  induction entries generalizing buffer with
  | nil =>
    refine Or.inr ⟨?_, [], rfl, rfl, .nil⟩
    rintro ⟨i, param, hparam, _⟩
    cases hparam
  | cons entry entries ih =>
    obtain ⟨kind, name⟩ := entry
    rw [List.map_cons, pops_cons]
    by_cases hcut : kind ≠ .double32Auto ∧ buffer.length < kind.width
    · have hlen : (buffer.take kind.width).length ≠ kind.width := by
        rw [List.length_take]
        omega
      obtain ⟨message, hmessage⟩ := ConfigParam.deserialise_cut hcut.1 hlen
      refine Or.inl ⟨⟨0, (starved_zero kind).mpr hcut⟩, message, ?_⟩
      rw [hmessage]
      rfl
    · obtain ⟨value, hvalue⟩ := deserialise_ok hcut
      rw [exists_starved_cons hcut, hvalue, ok_bind]
      obtain ⟨hi, message, hread⟩ | ⟨hnone, params, hread, hparams⟩ := ih (buffer.drop kind.width)
      · refine Or.inl ⟨hi, message, ?_⟩
        rw [hread]
        rfl
      · refine Or.inr ⟨hnone, ⟨kind, name, some value⟩ :: params, ?_, ?_, ?_⟩
        · rw [hread, ok_bind, List.drop_drop, configWidth_cons]
          rfl
        · rw [List.map_cons, hparams.entry]
          rfl
        · apply List.Forall₂.cons _ hparams.values
          exact ⟨rfl, value, rfl, hvalue⟩

theorem deserialise_foreign {file : ConfigFile} {buffer : Bytes}
    (h : BigEndian.toNat (buffer.take 4) ≠ file.signature) :
    file.deserialise buffer = .ok (none, buffer.drop 4) := if_pos h

/-- A reader of a file with its signature raises just if the file lacks checked bytes. -/
theorem deserialise_cases {file : ConfigFile} {buffer : Bytes}
    (h : BigEndian.toNat (buffer.take 4) = file.signature) :
    (buffer.drop 4).length < checkedWidth (file.params.map Prod.fst) ∧
        (∃ message, file.deserialise buffer = .error (.valueError message)) ∨
      checkedWidth (file.params.map Prod.fst) ≤ (buffer.drop 4).length ∧ ∃ params,
        file.deserialise buffer =
          .ok (some params, buffer.drop (4 + configWidth (file.params.map Prod.fst))) ∧
        Contents file.params (buffer.drop 4) params := by
  have hpops : file.deserialise buffer = (do
      let params ← deserialise.pops file.params (buffer.drop 4)
      return (some params.1, params.2)) := if_neg (not_not_intro h)
  rw [hpops]
  obtain ⟨hi, message, hread⟩ | ⟨hnone, params, hread, hparams⟩ :=
    pops_cases file.params (buffer.drop 4)
  · refine Or.inl ⟨(exists_starved_iff _ _).mp hi, message, ?_⟩
    rw [hread]
    rfl
  · rw [exists_starved_iff, not_lt] at hnone
    refine Or.inr ⟨hnone, params, ?_, hparams⟩
    rw [hread, ok_bind, List.drop_drop]
    rfl

theorem getElem?_configFields {kinds : List ConfigParam} {i : ℕ} (hi : i < kinds.length)
    (buffer : Bytes) :
    ∃ kind, (configFields kinds buffer)[i]? =
      some (kind, (buffer.drop (configWidth (kinds.take i))).take kind.width) := by
  induction kinds generalizing i buffer with
  | nil => exact absurd hi (Nat.not_lt_zero i)
  | cons kind kinds ih =>
    cases i with
    | zero => exact ⟨kind, rfl⟩
    | succ i =>
      obtain ⟨kind', h⟩ := ih (Nat.lt_of_succ_lt_succ hi) (buffer.drop kind.width)
      refine ⟨kind', ?_⟩
      rw [configFields, List.getElem?_cons_succ, h, List.drop_drop, List.take_succ_cons,
        configWidth_cons]

/-- A parameter without a single byte is a float, and zero. -/
theorem value_of_readFrom_nil {param : NamedParam} (h : param.ReadFrom []) :
    param.value = some (.float 0) := by
  obtain ⟨value, hvalue, hread⟩ := h
  by_cases hkind : param.kind = .double32Auto
  · rw [hkind] at hread
    cases hread
    rw [hvalue]
    exact congrArg (fun q => some (PyVal.float q)) (@ParamDouble32Auto.decode_zero false)
  · have hlen : ([] : Bytes).length ≠ param.kind.width := param.kind.width_pos.ne
    obtain ⟨message, hmessage⟩ := ConfigParam.deserialise_cut hkind hlen
    rw [hmessage] at hread
    cases hread

theorem Contents.missing {entries : List (ConfigParam × String)} {buffer : Bytes}
    {params : List NamedParam} (h : Contents entries buffer params) {i : ℕ} {param : NamedParam}
    (hi : params[i]? = some param)
    (hlen : buffer.length ≤ configWidth ((entries.map Prod.fst).take i)) :
    param.value = some (.float 0) := by
  obtain ⟨hlt, hparam⟩ := List.getElem?_eq_some_iff.mp hi
  have hlt' : i < (configFields (entries.map Prod.fst) buffer).length := h.values.length_eq ▸ hlt
  have hkinds : i < (entries.map Prod.fst).length := by
    rw [← h.entry, List.length_map, List.length_map]
    exact hlt
  obtain ⟨kind, hfield⟩ := getElem?_configFields hkinds buffer
  have hread := (h.values.get hlt hlt').2
  rw [List.get_eq_getElem, List.get_eq_getElem, hparam,
    (List.getElem?_eq_some_iff.mp hfield).2, List.drop_eq_nil_of_le hlen] at hread
  rw [List.take_nil] at hread
  exact value_of_readFrom_nil hread

end ConfigFile

theorem widths_mcconf : checkedWidth (mcconf.params.map Prod.fst) = 477 ∧
    configWidth (mcconf.params.map Prod.fst) = 477 := by
  decide +kernel

theorem widths_appconf : checkedWidth (appconf.params.map Prod.fst) = 437 ∧
    configWidth (appconf.params.map Prod.fst) = 489 := by
  decide +kernel

/-- A motor configuration that is cut off is refused. Of an application configuration the last 13
floats, or what is missing of them, may be cut off: those without a byte are read as zero. -/
theorem confgenerator_deserialise_cut (buffer : Bytes) :
    (BigEndian.toNat (buffer.take 4) = MCCONF_SIGNATURE →
      ((∃ message, confgeneratorDeserialiseMcconf buffer = .error (.valueError message)) ↔
        buffer.length < 481) ∧
      (481 ≤ buffer.length → ∃ params,
        confgeneratorDeserialiseMcconf buffer = .ok (some params, buffer.drop 481) ∧
        params.map NamedParam.entry = mcconf.params)) ∧
    (BigEndian.toNat (buffer.take 4) = APPCONF_SIGNATURE →
      ((∃ message, confgeneratorDeserialiseAppconf buffer = .error (.valueError message)) ↔
        buffer.length < 441) ∧
      (441 ≤ buffer.length → ∃ params,
        confgeneratorDeserialiseAppconf buffer = .ok (some params, buffer.drop 493) ∧
        params.map NamedParam.entry = appconf.params ∧
        ∀ i param, params[i]? = some param →
          buffer.length ≤ 4 + configWidth ((appconf.params.map Prod.fst).take i) →
            param.value = some (.float 0))) := by
  constructor
  · intro hsignature
    obtain ⟨hchecked, hwidth⟩ := widths_mcconf
    obtain ⟨hlen, message, hread⟩ | ⟨hlen, params, hread, hparams⟩ :=
      @ConfigFile.deserialise_cases mcconf buffer hsignature
    · rw [hchecked, List.length_drop] at hlen
      exact ⟨iff_of_true ⟨message, hread⟩ (by omega), fun h => absurd h (by omega)⟩
    · rw [hchecked, List.length_drop] at hlen
      rw [hwidth] at hread
      refine ⟨iff_of_false ?_ (by omega), fun _ => ⟨params, hread, hparams.entry⟩⟩
      rintro ⟨message, h⟩
      cases hread.symm.trans h
  · intro hsignature
    obtain ⟨hchecked, hwidth⟩ := widths_appconf
    obtain ⟨hlen, message, hread⟩ | ⟨hlen, params, hread, hparams⟩ :=
      @ConfigFile.deserialise_cases appconf buffer hsignature
    · rw [hchecked, List.length_drop] at hlen
      exact ⟨iff_of_true ⟨message, hread⟩ (by omega), fun h => absurd h (by omega)⟩
    · rw [hchecked, List.length_drop] at hlen
      rw [hwidth] at hread
      refine ⟨iff_of_false ?_ (by omega), fun _ => ⟨params, hread, hparams.entry, ?_⟩⟩
      · rintro ⟨message, h⟩
        cases hread.symm.trans h
      · intro i param hi hmissing
        apply hparams.missing hi
        rw [List.length_drop]
        omega

/-- A configuration of zeros. -/
def zeroConfig (signature length : ℕ) : Bytes :=
  BigEndian.ofNat 4 signature ++ List.replicate length 0

/-- A motor configuration that lacks its last byte, and an application configuration that lacks
fifty-two. -/
theorem confgenerator_deserialise_cut_zeros :
    (∃ message, confgeneratorDeserialiseMcconf (zeroConfig MCCONF_SIGNATURE 476) =
      .error (.valueError message)) ∧
    ∃ params, confgeneratorDeserialiseAppconf (zeroConfig APPCONF_SIGNATURE 437) =
        .ok (some params, []) ∧
      params.map NamedParam.entry = appconf.params := by
  have hlength (signature length : ℕ) : (zeroConfig signature length).length = 4 + length := by
    rw [zeroConfig, List.length_append, BigEndian.length_ofNat, List.length_replicate]
  obtain ⟨hmotor, _⟩ := confgenerator_deserialise_cut (zeroConfig MCCONF_SIGNATURE 476)
  obtain ⟨_, happ⟩ := confgenerator_deserialise_cut (zeroConfig APPCONF_SIGNATURE 437)
  obtain ⟨hrefused, _⟩ := hmotor (by decide +kernel)
  obtain ⟨_, htaken⟩ := happ (by decide +kernel)
  obtain ⟨params, hread, hentry, _⟩ := htaken (by rw [hlength])
  rw [List.drop_of_length_le (by rw [hlength]; omega)] at hread
  exact ⟨hrefused.mpr (by rw [hlength]; omega), params, hread, hentry⟩

end PyVesc
