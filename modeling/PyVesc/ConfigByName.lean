import PyVesc.FloatCodec
import PyVesc.GeneratedConfig
import PyVesc.ParameterLists

/-!
# Writing a configuration file

The generated writers look their parameters up by name, in lists of parameters in any order. A file
that is read and written back stays what it is but for truth values and floats near zero. A list
that is written and read back is put in order, and every value is what its own bytes say.
-/

namespace PyVesc

/-! ### One parameter -/

namespace ConfigParam

/-- The bytes that are written for a parameter after it has been read from `bs`. -/
def rewritten (kind : ConfigParam) (bs : Bytes) : Bytes :=
  if kind = .bool then [if bs = [0] then 0 else 1] else kind.kept bs

theorem length_rewritten {kind : ConfigParam} {bs : Bytes} (hlen : bs.length = kind.width) :
    (kind.rewritten bs).length = kind.width := by
  by_cases hbool : kind = .bool
  · rw [rewritten, if_pos hbool, hbool]
    rfl
  · rw [rewritten, if_neg hbool, kept]
    split_ifs with h
    · rw [h.1]
      rfl
    · exact hlen

/-- Which bytes stay what they are. -/
theorem rewritten_eq_iff {kind : ConfigParam} {bs : Bytes} (hlen : bs.length = kind.width) :
    kind.rewritten bs = bs ↔ (kind = .bool → bs = [0] ∨ bs = [1]) ∧
      (kind = .double32Auto → bs = [0, 0, 0, 0] ∨
        ParamDouble32Auto.smallest ≤ |ParamDouble32Auto.decode (BigEndian.toNat bs)|) := by
  by_cases hbool : kind = .bool
  · subst hbool
    rw [rewritten, if_pos rfl]
    by_cases hzero : bs = [0]
    · simp [hzero]
    · rw [if_neg hzero]
      simp [hzero, eq_comm]
  · rw [rewritten, if_neg hbool, kept]
    by_cases hauto : kind = .double32Auto
    · by_cases hsmall :
          |ParamDouble32Auto.decode (BigEndian.toNat bs)| < ParamDouble32Auto.smallest
      · rw [if_pos ⟨hauto, hsmall⟩]
        simp [hauto, not_le_of_gt hsmall, eq_comm]
      · rw [if_neg fun h => hsmall h.2]
        simp [hauto, le_of_not_gt hsmall]
    · rw [if_neg fun h => hauto h.1]
      simp [hauto, hbool]

theorem serialise_of_deserialise {kind : ConfigParam} {bs : Bytes} (hlen : bs.length = kind.width)
    {value : PyVal} (h : kind.deserialise bs = .ok value) :
    kind.serialise value = .ok (kind.rewritten bs) := by
  by_cases hbool : kind = .bool
  · subst hbool
    obtain ⟨b, rfl⟩ := List.length_eq_one_iff.mp hlen
    obtain ⟨value', hread, hwrite⟩ := serialise_deserialise_bool b
    cases hread.symm.trans h
    rw [rewritten, if_pos rfl]
    simp only [List.cons.injEq, and_true]
    exact hwrite
  · obtain ⟨value', hread, hwrite⟩ := serialise_deserialise hlen fun h => absurd h hbool
    cases hread.symm.trans h
    rw [rewritten, if_neg hbool]
    exact hwrite

end ConfigParam

namespace NamedParam

theorem serialise_of_readFrom {param : NamedParam} {bs : Bytes}
    (hlen : bs.length = param.kind.width)
    (h : param.ReadFrom bs) : param.serialise = .ok (param.kind.rewritten bs) := by
  obtain ⟨value, hvalue, hread⟩ := h
  rw [serialise, hvalue]
  exact ConfigParam.serialise_of_deserialise hlen hread

end NamedParam

/-! ### Lists of parameters -/

namespace ConfigFile

variable {params own : List NamedParam}

/-- Where no two parameters share a name, a name finds its parameter. -/
theorem filter_name (hnodup : (params.map NamedParam.name).Nodup) {param : NamedParam}
    (hparam : param ∈ params) :
    params.filter (fun other => other.name = param.name) = [param] := by
  induction params with
  | nil => cases hparam
  | cons first params ih =>
    obtain ⟨hfirst, hrest⟩ := List.nodup_cons.mp hnodup
    rcases List.mem_cons.mp hparam with rfl | hparam
    · rw [List.filter_cons, if_pos (decide_eq_true rfl), List.filter_eq_nil_iff.mpr]
      intro other hother h
      rw [decide_eq_true_iff] at h
      exact hfirst (h ▸ List.mem_map_of_mem hother)
    · have hne : first.name ≠ param.name := fun h => hfirst (h ▸ List.mem_map_of_mem hparam)
      rw [List.filter_cons, if_neg (by rw [decide_eq_true_iff]; exact hne)]
      exact ih hrest hparam

theorem serialiseNamed_eq (hnodup : (params.map NamedParam.name).Nodup) {param : NamedParam}
    (hparam : param ∈ params) : serialiseNamed params param.name = param.serialise := by
  rw [serialiseNamed, filter_name hnodup hparam, List.mapM_cons, List.mapM_nil]
  cases param.serialise <;> rfl

theorem nodup_names {file : ConfigFile} (hentry : own.map NamedParam.entry = file.params) :
    (own.map NamedParam.name).Nodup := by
  have hnames : own.map NamedParam.name = (own.map NamedParam.entry).map Prod.snd := by
    rw [List.map_map]
    rfl
  rw [hnames, hentry]
  exact file.nodup

/-- A writer writes its own parameters in its own order, wherever they stand in the list. -/
theorem serialise_own {file : ConfigFile} (hnodup : (params.map NamedParam.name).Nodup)
    (hown : own ⊆ params) (hentry : own.map NamedParam.entry = file.params) :
    file.serialise params = (do
      let buffer ← own.mapM NamedParam.serialise
      return BigEndian.ofNat 4 file.signature ++ buffer.flatten) := by
  have hfields : file.params.mapM (fun entry => serialiseNamed params entry.2) =
      own.mapM NamedParam.serialise := by
    rw [← hentry, List.mapM_map]
    exact mapM_congr fun param hparam => serialiseNamed_eq hnodup (hown hparam)
  rw [serialise, hfields]

/-! ### Reading, then writing -/

theorem configFields_take (kinds : List ConfigParam) (buffer : Bytes) {n : ℕ}
    (hn : configWidth kinds ≤ n) :
    configFields kinds (buffer.take n) = configFields kinds buffer := by
  induction kinds generalizing buffer n with
  | nil => rfl
  | cons kind kinds ih =>
    rw [configWidth_cons] at hn
    rw [configFields, configFields, List.take_take, Nat.min_eq_left (by omega), List.drop_take,
      ih (buffer.drop kind.width) (by omega)]

section Whole
variable {kinds : List ConfigParam} {buffer : Bytes} (hlen : configWidth kinds ≤ buffer.length)
include hlen

theorem length_field : ∀ f ∈ configFields kinds buffer, f.2.length = f.1.width := by
  have hwhole := @length_of_mem_configFields kinds (buffer.take (configWidth kinds))
    (List.length_take_of_le hlen)
  rw [configFields_take kinds buffer le_rfl] at hwhole
  exact hwhole

theorem flatten_fields :
    (configFields kinds buffer).flatMap Prod.snd = buffer.take (configWidth kinds) := by
  have hwhole := @flatten_configFields kinds (buffer.take (configWidth kinds))
    (List.length_take_of_le hlen)
  rw [configFields_take kinds buffer le_rfl] at hwhole
  exact hwhole

end Whole

theorem Contents.serialise {entries : List (ConfigParam × String)} {buffer : Bytes}
    (h : Contents entries buffer params)
    (hlen : configWidth (entries.map Prod.fst) ≤ buffer.length) :
    params.mapM NamedParam.serialise =
      .ok ((configFields (entries.map Prod.fst) buffer).map fun f => f.1.rewritten f.2) := by
  apply mapM_eq_ok_of_forall₂
  rw [List.forall₂_map_right_iff]
  obtain ⟨hcount, hvalues⟩ := List.forall₂_iff_zip.mp h.values
  refine List.forall₂_iff_zip.mpr ⟨hcount, fun {param field} hmem => ?_⟩
  obtain ⟨hkind, hread⟩ := hvalues hmem
  have hwidth := length_field hlen field (List.of_mem_zip hmem).2
  rw [← hkind] at hwidth ⊢
  exact NamedParam.serialise_of_readFrom hwidth hread

/-- A file that is read and written back, whatever follows it: the truth values come back as 0 and
1, the floats near zero as zero, and all else as it was. -/
theorem deserialise_then_serialise {file : ConfigFile} {buffer : Bytes}
    (hsignature : BigEndian.toNat (buffer.take 4) = file.signature)
    (hlen : 4 + configWidth (file.params.map Prod.fst) ≤ buffer.length) :
    ∃ params, file.deserialise buffer =
        .ok (some params, buffer.drop (4 + configWidth (file.params.map Prod.fst))) ∧
      file.serialise params = .ok (buffer.take 4 ++
        (configFields (file.params.map Prod.fst) (buffer.drop 4)).flatMap
          fun f => f.1.rewritten f.2) ∧
      (file.serialise params =
          .ok (buffer.take (4 + configWidth (file.params.map Prod.fst))) ↔
        ∀ f ∈ configFields (file.params.map Prod.fst) (buffer.drop 4),
          (f.1 = .bool → f.2 = [0] ∨ f.2 = [1]) ∧
          (f.1 = .double32Auto → f.2 = [0, 0, 0, 0] ∨
            ParamDouble32Auto.smallest ≤
              |ParamDouble32Auto.decode (BigEndian.toNat f.2)|)) := by
  have hrest : configWidth (file.params.map Prod.fst) ≤ (buffer.drop 4).length := by
    rw [List.length_drop]
    omega
  have hchecked : checkedWidth (file.params.map Prod.fst) ≤ (buffer.drop 4).length :=
    (checkedWidth_le _).trans hrest
  obtain ⟨hcut, _⟩ | ⟨_, params, hread, hparams⟩ := deserialise_cases hsignature
  · exact absurd hcut (not_lt.mpr hchecked)
  have hfour : BigEndian.ofNat 4 file.signature = buffer.take 4 := by
    have htake : (buffer.take 4).length = 4 := List.length_take_of_le (by omega)
    have hbytes := BigEndian.ofNat_toNat (buffer.take 4)
    rw [htake, hsignature] at hbytes
    exact hbytes
  have hwrite : file.serialise params = .ok (buffer.take 4 ++
      (configFields (file.params.map Prod.fst) (buffer.drop 4)).flatMap
        fun f => f.1.rewritten f.2) := by
    rw [serialise_own (nodup_names hparams.entry) (List.Subset.refl _) hparams.entry,
      hparams.serialise hrest, ok_bind, hfour]
    rfl
  refine ⟨params, hread, hwrite, ?_⟩
  have hwidth := length_field hrest
  rw [hwrite, Except.ok.injEq, List.take_add, List.append_cancel_left_eq, ← flatten_fields hrest,
    flatMap_eq_iff _ fun f hf =>
      (ConfigParam.length_rewritten (hwidth f hf)).trans (hwidth f hf).symm]
  apply forall₂_congr
  intro f hf
  exact ConfigParam.rewritten_eq_iff (hwidth f hf)

/-- A motor configuration of zeros with a motor of type 2. -/
def motorTypeTwo : Bytes :=
  BigEndian.ofNat 4 MCCONF_SIGNATURE ++ ([0, 0, 2, 0] ++ List.replicate 473 0)

theorem deserialise_then_serialise_motorTypeTwo : ∃ params rest,
    mcconf.deserialise motorTypeTwo = .ok (some params, rest) ∧
      mcconf.serialise params ≠ .ok (motorTypeTwo.take 481) := by
  have hlen : 4 + configWidth (mcconf.params.map Prod.fst) ≤ motorTypeTwo.length := by
    decide +kernel
  obtain ⟨params, hread, _, hsame⟩ :=
    @deserialise_then_serialise mcconf motorTypeTwo (by decide +kernel) hlen
  rw [widths_mcconf.2] at hsame
  refine ⟨params, _, hread, fun h => ?_⟩
  have htwo : (ConfigParam.bool, [2]) ∈
      configFields (mcconf.params.map Prod.fst) (motorTypeTwo.drop 4) := by decide +kernel
  exact absurd ((hsame.mp h _ htwo).1 rfl) (by decide)

end ConfigFile

/-! ### Writing, then reading -/

theorem length_intToBytes {width : ℕ} {signed : Bool} {value : PyVal} {bs : Bytes}
    (h : intToBytes width signed value = .ok bs) : bs.length = width := by
  have hint : ∀ z, intToBytes width signed (.int z) = .ok bs → bs.length = width := by
    intro z hz
    rw [intToBytes] at hz
    dsimp only at hz
    split_ifs at hz
    all_goals
      cases hz
      exact BigEndian.length_ofInt _ _
  cases value with
  | int z => exact hint z h
  | bool b => exact hint (if b then 1 else 0) h
  | _ => cases h

theorem length_checked {width : ℕ} {signed : Bool} {value : PyVal} {refuse : Prop}
    [Decidable refuse] {e : PyError} {bs : Bytes}
    (h : (if refuse then .error e else intToBytes width signed value) = .ok bs) :
    bs.length = width := by
  split_ifs at h
  exact length_intToBytes h

namespace ConfigParam

theorem length_serialise {kind : ConfigParam} {value : PyVal} {bs : Bytes}
    (h : kind.serialise value = .ok bs) : bs.length = kind.width := by
  cases kind with
  | bool =>
    cases h
    rfl
  | double32Auto =>
    obtain ⟨q, _, h⟩ := bind_eq_ok h
    exact length_intToBytes h
  | uInt8 | int8 | uInt16 | int16 | uInt32 | int32 =>
    obtain ⟨q, _, h⟩ := bind_eq_ok h
    exact length_checked h
  | double16 | double32 =>
    obtain ⟨z, _, h⟩ := bind_eq_ok h
    exact length_checked h

/-- The value of a parameter after it has been written and read, where it can be written. -/
def settled : ConfigParam → PyVal → Option PyVal
  | .bool, value => some (.bool (StructFormat.Format.truth value))
  | .double32Auto, value =>
    (floatOf value).toOption.map fun q =>
      .float (ParamDouble32Auto.decode (ParamDouble32Auto.encode q))
  | kind, value => (kind.whole value).map kind.ofWhole

theorem settled_of_ne {kind : ConfigParam} (hbool : kind ≠ .bool) (hauto : kind ≠ .double32Auto)
    (value : PyVal) : kind.settled value = (kind.whole value).map kind.ofWhole := by
  cases kind <;> first | rfl | exact absurd rfl hbool | exact absurd rfl hauto

theorem number_of_numberOf {value : PyVal} {q : ℚ} (h : numberOf value = .ok q) :
    value.number = some q := by
  rw [numberOf] at h
  cases hnumber : value.number with
  | none =>
    rw [hnumber] at h
    cases h
  | some q' =>
    rw [hnumber] at h
    cases h
    rfl

/-- What is written of the kinds of numbers is an integer. -/
theorem whole_of_serialise {kind : ConfigParam} (hbool : kind ≠ .bool)
    (hauto : kind ≠ .double32Auto) {value : PyVal} {bs : Bytes}
    (h : kind.serialise value = .ok bs) : ∃ z, kind.whole value = some z := by
  cases kind with
  | bool => exact absurd rfl hbool
  | double32Auto => exact absurd rfl hauto
  | uInt8 | int8 | uInt16 | int16 | uInt32 | int32 =>
    obtain ⟨q, _, h⟩ := bind_eq_ok h
    split_ifs at h
    cases value with
    | int z => exact ⟨z, rfl⟩
    | bool b => exact ⟨_, rfl⟩
    | _ => cases h
  | double16 | double32 =>
    obtain ⟨z, hround, _⟩ := bind_eq_ok h
    obtain ⟨q, hnumber, _⟩ := bind_eq_ok hround
    exact ⟨_, congrArg (Option.map PyNumber.roundHalfEven) (number_of_numberOf hnumber)⟩

theorem deserialise_truth (b : Bool) :
    ConfigParam.bool.deserialise [if b then 1 else 0] = .ok (.bool b) := by
  cases b <;> rfl

/-- A parameter that is written is read back as its kind settles it. -/
theorem deserialise_of_serialise {kind : ConfigParam} {value : PyVal} {bs : Bytes}
    (h : kind.serialise value = .ok bs) :
    ∃ settledValue, kind.settled value = some settledValue ∧
      kind.deserialise bs = .ok settledValue := by
  by_cases hbool : kind = .bool
  · subst hbool
    cases h
    exact ⟨_, rfl, deserialise_truth _⟩
  by_cases hauto : kind = .double32Auto
  · subst hauto
    obtain ⟨q, hfloat, _⟩ := bind_eq_ok h
    cases (ParamDouble32Auto.serialise_eq hfloat).symm.trans h
    have hword := @BigEndian.toNat_ofNat 4 _ (ParamDouble32Auto.encode_lt q)
    refine ⟨.float (ParamDouble32Auto.decode (ParamDouble32Auto.encode q)), ?_, ?_⟩
    · rw [settled, hfloat]
      rfl
    · exact congrArg (fun w => Except.ok (PyVal.float (ParamDouble32Auto.decode w))) hword
  · obtain ⟨z, hwhole⟩ := whole_of_serialise hbool hauto h
    refine ⟨kind.ofWhole z, ?_, ?_⟩
    · rw [settled_of_ne hbool hauto, hwhole]
      rfl
    · have hguards := Parameter.serialise_guards ⟨kind, value, z, hwhole⟩
      by_cases hrange : Parameter.InRange ⟨kind, value, z, hwhole⟩
      · obtain ⟨bs', hwrite, rfl⟩ := hguards.result hrange
        cases hwrite.symm.trans h
        exact deserialise_ofInt hauto hrange.1 hrange.2
      · obtain ⟨message, hrefuse⟩ := hguards.refusal hrange
        cases hrefuse.symm.trans h

end ConfigParam

namespace NamedParam

theorem length_serialise {param : NamedParam} {bs : Bytes} (h : param.serialise = .ok bs) :
    bs.length = param.kind.width := by
  rw [serialise] at h
  cases hvalue : param.value with
  | some value =>
    rw [hvalue] at h
    exact ConfigParam.length_serialise h
  | none =>
    rw [hvalue] at h
    dsimp only at h
    split_ifs at h with hbool
    cases h
    rw [hbool]
    rfl

/-- The value after it has been written and read. `None` is a false truth value. -/
def settled (param : NamedParam) : Option PyVal :=
  match param.value with
  | some value => param.kind.settled value
  | none => if param.kind = .bool then some (.bool false) else none

/-- A parameter before it is written and after it is read. -/
def SettlesAs (param settledParam : NamedParam) : Prop :=
  settledParam.entry = param.entry ∧
    ∃ settledValue, param.settled = some settledValue ∧ settledParam.value = some settledValue

theorem deserialise_of_serialise {param : NamedParam} {bs : Bytes}
    (h : param.serialise = .ok bs) :
    ∃ settledValue, param.settled = some settledValue ∧
      param.kind.deserialise bs = .ok settledValue := by
  rw [serialise] at h
  rw [settled]
  cases hvalue : param.value with
  | some value =>
    rw [hvalue] at h
    exact ConfigParam.deserialise_of_serialise h
  | none =>
    rw [hvalue] at h
    dsimp only at h ⊢
    split_ifs at h ⊢ with hbool
    cases h
    rw [hbool]
    exact ⟨_, rfl, ConfigParam.deserialise_truth false⟩

theorem settlesAs_of_readFrom {param settledParam : NamedParam} {bs : Bytes}
    (hwrite : param.serialise = .ok bs) (hentry : settledParam.entry = param.entry)
    (hread : settledParam.ReadFrom bs) : param.SettlesAs settledParam := by
  refine ⟨hentry, ?_⟩
  obtain ⟨value, hvalue, hread⟩ := hread
  obtain ⟨settledValue, hsettled, hback⟩ := deserialise_of_serialise hwrite
  have hkind : settledParam.kind = param.kind := congrArg Prod.fst hentry
  rw [hkind, hback] at hread
  cases hread
  exact ⟨_, hsettled, hvalue⟩

/-- What a parameter settles as is determined. -/
theorem eq_of_settlesAs {param settledParam : NamedParam} (h : param.SettlesAs settledParam)
    {settledValue : PyVal} (hsettled : param.settled = some settledValue) :
    settledParam = ⟨param.kind, param.name, some settledValue⟩ := by
  obtain ⟨hentry, settledValue', hsettled', hvalue⟩ := h
  cases hsettled.symm.trans hsettled'
  obtain ⟨hkind, hname⟩ := Prod.mk.inj hentry
  obtain ⟨kind, name, value⟩ := settledParam
  cases hkind
  cases hname
  cases hvalue
  rfl

end NamedParam

namespace ConfigFile

theorem configFields_flatten {kinds : List ConfigParam} {fields : List Bytes}
    (h : List.Forall₂ (fun kind field => field.length = kind.width) kinds fields) (rest : Bytes) :
    configWidth kinds = fields.flatten.length ∧
      configFields kinds (fields.flatten ++ rest) = kinds.zip fields := by
  induction h with
  | nil => exact ⟨rfl, rfl⟩
  | cons hlen _ ih =>
    obtain ⟨hwidth, hfields⟩ := ih
    constructor
    · rw [configWidth_cons, hwidth, List.flatten_cons, List.length_append, hlen]
    · rw [configFields, List.flatten_cons, List.append_assoc, List.take_left' hlen,
        List.drop_left' hlen, hfields]
      rfl

theorem settlesAs_of_contents {own settledOwn : List NamedParam} {fields : List Bytes}
    (hwrite : List.Forall₂ (fun param bs => param.serialise = .ok bs) own fields)
    (hentry : settledOwn.map NamedParam.entry = own.map NamedParam.entry)
    (hread : List.Forall₂ (fun param field => param.kind = field.1 ∧ param.ReadFrom field.2)
      settledOwn ((own.map NamedParam.kind).zip fields)) :
    List.Forall₂ NamedParam.SettlesAs own settledOwn := by
  induction hwrite generalizing settledOwn with
  | nil =>
    cases hread
    exact .nil
  | cons hfirst _ ih =>
    cases hread with
    | cons hvalue hvalues =>
      rw [List.map_cons, List.map_cons] at hentry
      obtain ⟨hhead, htail⟩ := List.cons.inj hentry
      exact .cons (NamedParam.settlesAs_of_readFrom hfirst hhead hvalue.2) (ih htail hvalues)

theorem exists_mapM_eq_ok_iff {α β : Type} {f : α → Py β} {l : List α} :
    (∃ out, l.mapM f = .ok out) ↔ ∀ a ∈ l, ∃ b, f a = .ok b := by
  induction l with
  | nil => exact iff_of_true ⟨[], rfl⟩ fun a ha => absurd ha List.not_mem_nil
  | cons a l ih =>
    rw [List.forall_mem_cons, ← ih, List.mapM_cons]
    constructor
    · rintro ⟨out, h⟩
      obtain ⟨b, hb, h⟩ := bind_eq_ok h
      obtain ⟨bs, hbs, _⟩ := bind_eq_ok h
      exact ⟨⟨b, hb⟩, bs, hbs⟩
    · rintro ⟨⟨b, hb⟩, bs, hbs⟩
      rw [hb, ok_bind, hbs]
      exact ⟨b :: bs, rfl⟩

/-- A list of parameters without two of one name, written and read. The file depends on the
parameters of its own alone, and gives them back in its order. -/
theorem serialise_then_deserialise {file : ConfigFile} {params own : List NamedParam}
    (hnodup : (params.map NamedParam.name).Nodup) (hown : own ⊆ params)
    (hentry : own.map NamedParam.entry = file.params) :
    file.serialise params = file.serialise own ∧
    ((∃ bs, file.serialise params = .ok bs) ↔ ∀ param ∈ own, ∃ bs, param.serialise = .ok bs) ∧
    ∀ bs, file.serialise params = .ok bs →
      bs.length = 4 + configWidth (file.params.map Prod.fst) ∧
      ∀ rest, (∃ settledOwn, file.deserialise (bs ++ rest) = .ok (some settledOwn, rest) ∧
          List.Forall₂ NamedParam.SettlesAs own settledOwn) ∧
        ∀ other : ConfigFile, other.signature ≠ file.signature →
          other.deserialise (bs ++ rest) = .ok (none, (bs ++ rest).drop 4) := by
  have hparams := serialise_own hnodup hown hentry
  have hkinds : file.params.map Prod.fst = own.map NamedParam.kind := by
    rw [← hentry, List.map_map]
    rfl
  refine ⟨?_, ?_, ?_⟩
  · rw [hparams, serialise_own (nodup_names hentry) (List.Subset.refl _) hentry]
  · rw [hparams, ← exists_mapM_eq_ok_iff]
    constructor
    · rintro ⟨bs, h⟩
      obtain ⟨fields, hfields, _⟩ := bind_eq_ok h
      exact ⟨fields, hfields⟩
    · rintro ⟨fields, hfields⟩
      rw [hfields]
      exact ⟨_, rfl⟩
  · intro bs h
    rw [hparams] at h
    obtain ⟨fields, hfields, h⟩ := bind_eq_ok h
    cases h
    have hwrite := forall₂_of_mapM_eq_ok hfields
    have hlens : List.Forall₂ (fun kind field => field.length = ConfigParam.width kind)
        (file.params.map Prod.fst) fields := by
      rw [hkinds, List.forall₂_map_left_iff]
      exact hwrite.imp fun param bs h => NamedParam.length_serialise h
    have hwidth := (configFields_flatten hlens []).1
    have hfour := BigEndian.length_ofNat 4 file.signature
    constructor
    · rw [List.length_append, hfour, hwidth]
    · intro rest
      have hsignature : BigEndian.toNat
          ((BigEndian.ofNat 4 file.signature ++ fields.flatten ++ rest).take 4) =
            file.signature := by
        rw [List.append_assoc, List.take_left' hfour, BigEndian.toNat_ofNat file.signature_lt]
      have hrest : (BigEndian.ofNat 4 file.signature ++ fields.flatten ++ rest).drop 4 =
          fields.flatten ++ rest := by
        rw [List.append_assoc, List.drop_left' hfour]
      constructor
      · obtain ⟨hcut, _⟩ | ⟨_, settledOwn, hread, hsettled⟩ := deserialise_cases hsignature
        · have hchecked := checkedWidth_le (file.params.map Prod.fst)
          rw [hrest, List.length_append] at hcut
          omega
        · refine ⟨settledOwn, ?_, ?_⟩
          · rw [hread, ← List.drop_drop, hrest, hwidth, List.drop_left]
          · have hvalues := hsettled.values
            rw [hrest, (configFields_flatten hlens rest).2, hkinds] at hvalues
            exact settlesAs_of_contents hwrite (hsettled.entry.trans hentry.symm) hvalues
      · intro other hother
        apply deserialise_foreign
        rw [hsignature]
        exact hother.symm

/-- Three parameters of a file in another order, behind one that is not of the file. A motor type of
2 comes back as a truth value, and a flag that holds no value as `False`. -/
theorem serialise_then_deserialise_mixed :
    let file : ConfigFile := ⟨7, [(.uInt8, "controller_id"), (.bool, "motor_type"),
      (.bool, "permanent_uart_enabled")], by decide, by decide⟩
    let other : NamedParam := ⟨.int8, "other", none⟩
    let controller : NamedParam := ⟨.uInt8, "controller_id", some (.int 9)⟩
    let motor : NamedParam := ⟨.bool, "motor_type", some (.int 2)⟩
    let uart : NamedParam := ⟨.bool, "permanent_uart_enabled", none⟩
    ∃ bs, file.serialise [other, uart, motor, controller] = .ok bs ∧
      file.deserialise bs = .ok (some [controller, ⟨.bool, "motor_type", some (.bool true)⟩,
        ⟨.bool, "permanent_uart_enabled", some (.bool false)⟩], []) := by
  intro file other controller motor uart
  obtain ⟨_, hok, hread⟩ := @serialise_then_deserialise file [other, uart, motor, controller]
    [controller, motor, uart] (by decide) (by decide) rfl
  obtain ⟨bs, hbs⟩ := hok.mpr (by
    intro param hparam
    simp only [List.mem_cons, List.not_mem_nil, or_false] at hparam
    rcases hparam with rfl | rfl | rfl
    · exact ⟨[9], rfl⟩
    · exact ⟨[1], rfl⟩
    · exact ⟨[0], rfl⟩)
  obtain ⟨⟨settledOwn, hsettled, hvalues⟩, _⟩ := (hread bs hbs).2 []
  rw [List.append_nil] at hsettled
  refine ⟨bs, hbs, hsettled.trans ?_⟩
  cases hvalues with
  | cons hcontroller hvalues =>
    cases hvalues with
    | cons hmotor hvalues =>
      cases hvalues with
      | cons huart hvalues =>
        cases hvalues
        rw [NamedParam.eq_of_settlesAs hcontroller rfl, NamedParam.eq_of_settlesAs hmotor rfl,
          NamedParam.eq_of_settlesAs huart rfl]
        rfl

end ConfigFile

end PyVesc
