import PyVesc.FieldSplits
import PyVesc.StaleTail
import PyVesc.Upload

/-!
# The getters of measurements

`get_measurements` and the getters that take one attribute of its answer, `get_firmware_version`
beside them. What a getter returns is the field of that name in the newest packet of values that the
read accepts, read at its place, where the nested calls suffice for the bytes that arrive. Three of
the getters ask for attributes under the names that the fields had in older firmware, and no answer
has them.
-/

namespace PyVesc

open StructFormat PyNumber VESCMessage

/-! ### The requests -/

section Requests
variable (crc : Bytes → UInt16) (canId : Option ℕ)

/-- The request for measurements, which is encoded once when the link is opened. -/
def getValuesMsg : Py Bytes := do
  encodeRequest crc (← Messages.getValues.call [] canId true)

variable (line : Line) (calls : ℕ) (waiting : Bytes)

def getMeasurements : Py (Option Response) :=
  writeWithin crc Messages.registry line calls (some (.expecting Messages.getValues.id)) waiting

/-- What is written to the transport, and what the request returns. -/
def getFirmwareVersion : List Bytes × Py (Option Response) :=
  match (do encodeRequest crc (← Messages.getVersion.call [] canId true) : Py Bytes) with
  | .error e => ([], .error e)
  | .ok data =>
    ([data], writeWithin crc Messages.registry line calls
      (some (.expecting Messages.getVersion.id)) waiting)

/-- An attribute of the answer. -/
def measured (name : String) : Py PyVal := do
  let response ← getMeasurements crc line calls waiting
  Response.getattr response name

def getRpm : Py PyVal := measured crc line calls waiting "rpm"

def getDutyCycle : Py PyVal := measured crc line calls waiting "duty_now"

def getVIn : Py PyVal := measured crc line calls waiting "v_in"

def getMotorCurrent : Py PyVal := measured crc line calls waiting "current_motor"

def getIncomingCurrent : Py PyVal := measured crc line calls waiting "current_in"

end Requests

/-! ### The attributes of an answer -/

/-- The fields by name, each with the value at its place. -/
def placed : List Field → Bytes → List (String × PyVal)
  | [], _ => []
  | f :: fields, body =>
    (f.name, scaleDown f.scalar.toList 0
      ((f.format.fill 0).unpack (body.take (f.format.fill 0).size))) ::
      placed fields (body.drop (f.format.fill 0).size)

theorem map_fst_placed (fields : List Field) (body : Bytes) :
    (placed fields body).map Prod.fst = fields.map Field.name := by
  induction fields generalizing body with
  | nil => rfl
  | cons f fields ih => rw [placed, List.map_cons, List.map_cons, ih]

theorem getElem?_placed {fields : List Field} {i : ℕ} {f : Field} (hi : fields[i]? = some f)
    (body : Bytes) :
    (placed fields body)[i]? = some (f.name, scaleDown f.scalar.toList 0 ((f.format.fill 0).unpack
      ((body.drop (fixedSize (fields.take i))).take (f.format.fill 0).size))) := by
  induction fields generalizing i body with
  | nil => cases hi
  | cons g fields ih =>
    cases i with
    | zero =>
      cases hi
      rfl
    | succ i =>
      rw [placed, List.getElem?_cons_succ, ih hi, List.drop_drop]
      rfl

theorem mem_placed_int {fields : List Field} {i : ℕ} {name : String} {k : IntFormat} {s : ℚ}
    (hs : s ≠ 0) (hint : s.isInt = true)
    (hi : fields[i]? = some ⟨name, .item (.int k), some s⟩) (body : Bytes) :
    (name, PyVal.float (nearest
        (k.unpack ((body.drop (fixedSize (fields.take i))).take k.size) / s))) ∈
      placed fields body := by
  have hmem := List.mem_of_getElem? (getElem?_placed hi body)
  have hscale : ∀ z : ℤ, scaleDown [s] 0 (.int z) = .float (nearest (z / s)) := by
    intro z
    have hquotient : quotient (.int z) s = some (nearest (z / s)) :=
      congrArg some (if_pos hint)
    change (if s ≠ 0 then ((quotient (.int z) s).map PyVal.float).getD (.int z) else _) = _
    rw [if_pos hs, hquotient]
    rfl
  rw [← hscale]
  exact hmem

theorem placed_eq_zip {fields : List Field} (hscalars : ∀ f ∈ fields, f.scalar ≠ none)
    (body : Bytes) :
    (fields.map Field.name).zip
        ((unpackItems (fields.map fun f => f.format.fill 0) body).mapIdx
          (scaleDown (fields.map fun f => f.scalar.getD 0))) = placed fields body := by
  induction fields generalizing body with
  | nil => rfl
  | cons f fields ih =>
    obtain ⟨hf, hfields⟩ := List.forall_mem_cons.mp hscalars
    obtain ⟨s, hs⟩ := Option.ne_none_iff_exists'.mp hf
    rw [List.map_cons, List.map_cons, List.map_cons, unpackItems, List.mapIdx_cons,
      List.zip_cons_cons, placed, ← ih hfields, hs]
    rfl

theorem Message.getattr_setattrs_iff {cls : MessageClass} {values : List (String × PyVal)}
    (hnodup : (values.map Prod.fst).Nodup) {name : String} {v : PyVal} :
    (Message.setattrs ⟨cls, none, []⟩ values).getattr name = .ok v ↔ (name, v) ∈ values := by
  constructor
  · intro h
    by_cases hname : name ∈ values.map Prod.fst
    · obtain ⟨⟨_, w⟩, hmem, rfl⟩ := List.mem_map.mp hname
      rw [getattr_setattrs _ hnodup _ hmem] at h
      cases h
      exact hmem
    · rw [getattr_setattrs_of_notMem _ hname] at h
      cases h
  · exact getattr_setattrs _ hnodup (name, v)

section Attributes
variable {registry : Registry} {cls : MessageClass} {fields : List Field}

theorem call_placed (hf : cls.recvFields = some fields)
    (hscalars : ∀ f ∈ fields, f.scalar ≠ none) (body : Bytes) :
    cls.call ((unpackItems (fields.map fun f => f.format.fill 0) body).mapIdx
        (scaleDown (FieldTable.ofFields fields).scalars)) none false =
      .ok (Message.setattrs ⟨cls, none, []⟩ (placed fields body)) := by
  have hnames := @MessageClass.fieldsToUnpack_declared cls false fields hf
  rw [scalars_eq_map hscalars, ← placed_eq_zip hscalars]
  cases fields with
  | nil =>
    simp only [MessageClass.call, hnames, ok_bind]
    rfl
  | cons f fields =>
    have hne : ((unpackItems ((f :: fields).map fun f => f.format.fill 0) body).mapIdx
        (scaleDown ((f :: fields).map fun f => f.scalar.getD 0))) ≠ [] := by
      apply List.ne_nil_of_length_pos
      rw [List.length_mapIdx, length_unpackItems, List.length_map]
      exact Nat.succ_pos _
    simp only [MessageClass.call, hnames, ok_bind, if_neg hne]
    rw [if_neg (by simp)]
    rfl

theorem unpackAs_placed (hf : cls.recvFields = some fields)
    (hscalars : ∀ f ∈ fields, f.scalar ≠ none) (hfix : ∀ f ∈ fields, f.format.isS = false)
    (b : UInt8) (body : Bytes) :
    unpackAs cls (b :: body) false =
      if fixedSize fields ≤ body.length then
        .ok (Message.setattrs ⟨cls, none, []⟩ (placed fields body))
      else .error .structError := by
  have htable : unpackTable cls false = .ok (FieldTable.ofFields fields) := by
    simp [unpackTable, hf, MessageClass.recvTable]
  have hstring := (FieldTable.stringField_ofFields fields).mpr hfix
  simp only [unpackAs, htable, ok_bind, hstring, plainFormats_ofFields hfix, structUnpackFrom_eq]
  have hiff : 1 + calcsize (fields.map fun f => f.format.fill 0) ≤ (b :: body).length ↔
      fixedSize fields ≤ body.length := by
    rw [List.length_cons, fixedSize]
    omega
  by_cases hle : fixedSize fields ≤ body.length
  · rw [if_pos hle, if_pos (hiff.mpr hle), ok_bind]
    exact call_placed hf hscalars body
  · rw [if_neg hle, if_neg fun h => hle (hiff.mp h)]
    rfl

/-- What is returned of the newest of the packets. -/
theorem newest_attribute_iff {msgId : ℕ} (hreg : registry.lookup msgId = some cls)
    (hf : cls.recvFields = some fields) (hscalars : ∀ f ∈ fields, f.scalar ≠ none)
    (hfix : ∀ f ∈ fields, f.format.isS = false) (hnodup : (fields.map Field.name).Nodup)
    {payloads : List Bytes} (hempty : [] ∉ payloads) {name : String} {v : PyVal} :
    (do
        let response ← unpackKept registry (newest (some msgId) payloads)
        Response.getattr response name) = .ok v ↔
      [] ∉ payloads ∧ ∃ b body, newest (some msgId) payloads = some (b :: body) ∧
        fixedSize fields ≤ body.length ∧ (name, v) ∈ placed fields body := by
  cases hnewest : newest (some msgId) payloads with
  | none =>
    refine iff_of_false (fun h => by cases h) ?_
    rintro ⟨_, b, body, h, _⟩
    cases h
  | some p =>
    obtain ⟨b, body, rfl, hb⟩ := carries_cons (carries_of_newest hnewest)
    have hunpack : VESCMessage.unpack registry (b :: body) false =
        unpackAs cls (b :: body) false := by
      rw [VESCMessage.unpack, msgType, hb, hreg]
      rfl
    change (do
        let response ← unpackMatch registry (b :: body)
        Response.getattr response name) = _ ↔ _
    rw [unpackMatch, hunpack, unpackAs_placed hf hscalars hfix]
    by_cases hle : fixedSize fields ≤ body.length
    · rw [if_pos hle]
      change (Message.setattrs ⟨cls, none, []⟩ (placed fields body)).getattr name = _ ↔ _
      rw [← map_fst_placed fields body] at hnodup
      rw [Message.getattr_setattrs_iff hnodup]
      constructor
      · exact fun h => ⟨hempty, b, body, rfl, hle, h⟩
      · rintro ⟨_, b', body', hp, _, h⟩
        cases hp
        exact h
    · rw [if_neg hle]
      refine iff_of_false (fun h => by cases h) ?_
      rintro ⟨_, b', body', hp, hle', _⟩
      cases hp
      exact hle hle'

/-- What a read for a class of fixed size returns an attribute of. -/
theorem read_attribute_iff {crc : Bytes → UInt16} {args : ReadArgs} {line : Line} {msgId : ℕ}
    (calls : ℕ) (hs : args.expectString = false) (hid : args.expectedMsgId = some msgId)
    (hreg : registry.lookup msgId = some cls) (hf : cls.recvFields = some fields)
    (hscalars : ∀ f ∈ fields, f.scalar ≠ none) (hfix : ∀ f ∈ fields, f.format.isS = false)
    (hnodup : (fields.map Field.name).Nodup) {name : String} {v : PyVal} :
    (do
        let response ← readWithin crc registry line calls args
        Response.getattr response name) = .ok v ↔
      CallsSuffice crc calls (line.heard crc args) ∧ [] ∉ accepted crc args line ∧ ∃ b body,
        newest (some msgId) (accepted crc args line) = some (b :: body) ∧
          fixedSize fields ≤ body.length ∧ (name, v) ∈ placed fields body := by
  obtain ⟨hsuffice, hsame⟩ | ⟨hexceed, e, hraised⟩ :=
    @readWithin_cases crc calls registry args line hs
  · rw [hsame, and_iff_right hsuffice, read_eq_accepted crc registry args line hs]
    by_cases hempty : [] ∈ accepted crc args line
    · rw [kept_empty args hid hempty]
      exact iff_of_false (fun h => by cases h) (fun h => h.1 hempty)
    · rw [kept_nonempty args fun p hp h => hempty (h ▸ hp), hid, ok_bind]
      exact newest_attribute_iff hreg hf hscalars hfix hnodup hempty
  · rw [hraised]
    exact iff_of_false (fun h => by cases h) (fun h => hexceed h.1)

end Attributes

/-! ### The getters -/

section Getters
variable {crc : Bytes → UInt16} {line : Line} {calls : ℕ} {waiting : Bytes}

/-- The packet of values that the read settles on. -/
structure Settles (crc : Bytes → UInt16) (line : Line) (calls : ℕ) (body : Bytes) : Prop where
  calls : CallsSuffice crc calls (line.heard crc (.expecting Messages.getValues.id))
  payloads : [] ∉ accepted crc (.expecting Messages.getValues.id) line
  newest : newest (some Messages.getValues.id)
    (accepted crc (.expecting Messages.getValues.id) line) = some (4 :: body)

theorem measured_iff {name : String} {v : PyVal} :
    measured crc line calls waiting name = .ok v ↔
      ∃ body, Settles crc line calls body ∧ 72 ≤ body.length ∧
        (name, v) ∈ placed (Messages.getValues.recvFields.getD []) body := by
  have hread := @read_attribute_iff Messages.registry Messages.getValues
    (Messages.getValues.recvFields.getD []) crc (.expecting Messages.getValues.id) line
    Messages.getValues.id calls rfl rfl rfl rfl (by decide) (by decide) (by decide +kernel) name v
  rw [measured, getMeasurements, writeWithin_eq_readWithin, hread]
  constructor
  · rintro ⟨hcalls, hempty, b, body, hnewest, hlen, hmem⟩
    obtain ⟨b', body', hcons, hb⟩ := carries_cons (carries_of_newest hnewest)
    cases hcons
    have hfour : b = 4 := UInt8.toNat_inj.mp hb
    rw [hfour] at hnewest
    exact ⟨body, ⟨hcalls, hempty, hnewest⟩, hlen, hmem⟩
  · rintro ⟨body, ⟨hcalls, hempty, hnewest⟩, hlen, hmem⟩
    exact ⟨hcalls, hempty, 4, body, hnewest, hlen, hmem⟩

theorem mem_placed_iff {name : String} {body : Bytes} {w : PyVal}
    (h : (name, w) ∈ placed (Messages.getValues.recvFields.getD []) body) {v : PyVal} :
    (name, v) ∈ placed (Messages.getValues.recvFields.getD []) body ↔ v = w := by
  have hnodup : ((placed (Messages.getValues.recvFields.getD []) body).map Prod.fst).Nodup := by
    rw [map_fst_placed]
    decide +kernel
  refine ⟨fun hv => ?_, fun hv => hv ▸ h⟩
  exact congrArg Prod.snd (List.inj_on_of_nodup_map hnodup hv h rfl)

/-- A number of four bytes is a double. -/
theorem nearest_unpack {bs : Bytes} (hlen : bs.length = 4) :
    nearest ((IntFormat.unpack .i bs : ℤ) / 1) = IntFormat.unpack .i bs := by
  obtain ⟨⟨hlow, hhigh⟩, _⟩ :=
    Option.ite_none_right_eq_some.mp (IntFormat.pack_unpack (f := .i) hlen)
  have hsigned : IntFormat.signed .i = true := rfl
  have hbound : IntFormat.bound .i = 2 ^ 31 := rfl
  rw [if_pos hsigned, hbound] at hlow
  rw [hbound] at hhigh
  rw [div_one]
  apply nearest_of_isDouble
  apply isDouble_intCast
  rw [abs_le]
  omega

/-- The speed and the voltage are those of the newest packet of values, and there are none unless it
is as long as the layout. The other getters never return. -/
theorem getters_return (crc : Bytes → UInt16) (line : Line) (calls : ℕ) (waiting : Bytes) :
    (∀ v, getRpm crc line calls waiting = .ok v ↔ ∃ body, Settles crc line calls body ∧
      72 ≤ body.length ∧ v = .float (IntFormat.unpack .i ((body.drop 22).take 4))) ∧
    (∀ v, getVIn crc line calls waiting = .ok v ↔ ∃ body, Settles crc line calls body ∧
      72 ≤ body.length ∧ v = .float (nearest (IntFormat.unpack .h ((body.drop 26).take 2) / 10))) ∧
    ∀ v, getDutyCycle crc line calls waiting ≠ .ok v ∧
      getMotorCurrent crc line calls waiting ≠ .ok v ∧
      getIncomingCurrent crc line calls waiting ≠ .ok v := by
  have hnone : ∀ name, name ∉ (Messages.getValues.recvFields.getD []).map Field.name → ∀ v,
      measured crc line calls waiting name ≠ .ok v := by
    intro name hname v h
    obtain ⟨body, _, _, hmem⟩ := measured_iff.mp h
    rw [← map_fst_placed _ body] at hname
    exact hname (List.mem_map_of_mem hmem)
  refine ⟨fun v => ?_, fun v => ?_, fun v => ⟨?_, ?_, ?_⟩⟩
  · rw [getRpm, measured_iff]
    apply exists_congr
    intro body
    have hplace := @mem_placed_int (Messages.getValues.recvFields.getD []) 7 "rpm" .i 1 one_ne_zero
      rfl rfl body
    rw [mem_placed_iff hplace]
    refine and_congr_right fun _ => and_congr_right fun hlen => ?_
    have hslice : ((body.drop 22).take 4).length = 4 := by
      rw [List.length_take, List.length_drop]
      omega
    rw [← nearest_unpack hslice]
    rfl
  · rw [getVIn, measured_iff]
    apply exists_congr
    intro body
    have hplace := @mem_placed_int (Messages.getValues.recvFields.getD []) 8 "v_in" .h 10
      (by norm_num) rfl rfl body
    rw [mem_placed_iff hplace]
    rfl
  · exact hnone "duty_now" (by decide +kernel) v
  · exact hnone "current_motor" (by decide +kernel) v
  · exact hnone "current_in" (by decide +kernel) v

/-- Values with a speed of 1000 and a voltage of 12.1. -/
def valuesBody : Bytes := List.replicate 24 0 ++ [3, 232, 0, 121] ++ List.replicate 44 0

def valuesFrame : Bytes := frameBytes Crc16.xmodem (4 :: valuesBody)

theorem settles_valuesFrame :
    Settles Crc16.xmodem (.burst valuesFrame) callLimit valuesBody := by
  have hpacket : IsPacket Crc16.xmodem valuesFrame (4 :: valuesBody) :=
    isPacket_frameBytes Crc16.xmodem (by decide)
  have hbytes : ((([] : List Poll) ++ [(Line.burst valuesFrame).polls 0]).map Poll.chunk).flatten =
      Scanner.stream [(valuesFrame, 4 :: valuesBody)] := rfl
  have hwhole := Scanner.receive_packets (reads_isPacket Crc16.xmodem)
    (List.forall_mem_singleton.mpr hpacket) _ hbytes
  have hgo : ∀ earlier poll, earlier ++ [poll] <+: [] →
      ¬ EndsRead Crc16.xmodem (.expecting 4) earlier poll := by
    intro earlier poll hpre
    exact absurd (List.prefix_nil.mp hpre) (by simp)
  have haccepted : accepted Crc16.xmodem (.expecting 4) (.burst valuesFrame) =
      [4 :: valuesBody] := by
    obtain ⟨_, haccepted⟩ | ⟨⟨earlier, poll, hpre, hends⟩, _⟩ :=
      accepted_cases Crc16.xmodem (.expecting 4) (.burst valuesFrame) (burst_polls _ 4)
        (burst_idle _ 4)
    · rw [haccepted, unframed, hwhole]
      rfl
    · exact absurd hends (hgo earlier poll hpre)
  constructor
  · exact (callsSuffice_heard_iff _ _ _ _ (burst_polls _ 4) (burst_idle _ 4) hgo).mpr
      (callsSuffice_packets (List.forall_mem_singleton.mpr hpacket) (by rw [hbytes]) (by decide))
  · rw [show Messages.getValues.id = 4 from rfl, haccepted]
    decide
  · rw [show Messages.getValues.id = 4 from rfl, haccepted]
    rfl

theorem getters_return_values :
    getRpm Crc16.xmodem (.burst valuesFrame) callLimit [2, 1] = .ok (.float 1000) ∧
      getVIn Crc16.xmodem (.burst valuesFrame) callLimit [2, 1] =
        .ok (.float (nearest (121 / 10))) ∧
      ∀ v, getMotorCurrent Crc16.xmodem (.burst valuesFrame) callLimit [2, 1] ≠ .ok v := by
  obtain ⟨hrpm, hvoltage, hothers⟩ :=
    getters_return Crc16.xmodem (.burst valuesFrame) callLimit [2, 1]
  refine ⟨(hrpm _).mpr ⟨_, settles_valuesFrame, by decide, by decide +kernel⟩,
    (hvoltage _).mpr ⟨_, settles_valuesFrame, by decide, by decide +kernel⟩,
    fun v => (hothers v).2.1⟩

end Getters

end PyVesc
