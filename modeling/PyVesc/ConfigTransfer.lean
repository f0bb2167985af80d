import PyVesc.CanForwarding
import PyVesc.ConfigByName
import PyVesc.StringRead

/-!
# Fetching a configuration and writing it back

`get_motor_configuration` and its relatives: a request, and a read of a string. What comes back is
as much of the configuration as has arrived in whole frames when the read ends. Such a beginning is
refused by the reader of a motor configuration, but an application configuration that lacks only
floats is read, and written back with zeros in their place.
-/

namespace PyVesc

open VESCMessage

/-! ### The requests -/

/-- A read of a string, with the other defaults of `write`. -/
def ReadArgs.string : ReadArgs := ⟨1 / 10, true, true, 1 / 2, none⟩

section Requests
variable (crc : Bytes → UInt16) (line : Line) (waiting : Bytes) (canId : Option ℕ)

/-- What is written to the transport, and what the request returns. -/
def stringRequest (msg : Py Message) : List Bytes × Py (Option Response) :=
  match (do encode crc (← msg) : Py Bytes) with
  | .error e => ([], .error e)
  | .ok data => ([data], write crc Messages.registry line (some .string) waiting)

def sendTerminalCmd (cmd : PyVal) : List Bytes × Py (Option Response) :=
  stringRequest crc line waiting (Messages.terminalCmd.call [cmd] canId true)

def getMotorConfiguration : List Bytes × Py (Option Response) :=
  stringRequest crc line waiting (Messages.getMotorConfig.call [] canId true)

def setMotorConfiguration (data : PyVal) : List Bytes × Py (Option Response) :=
  stringRequest crc line waiting (Messages.setMotorConfig.call [data] canId true)

def getAppConfiguration : List Bytes × Py (Option Response) :=
  stringRequest crc line waiting (Messages.getAppConfig.call [] canId true)

def setAppConfiguration (data : PyVal) : List Bytes × Py (Option Response) :=
  stringRequest crc line waiting (Messages.setAppConfig.call [data] canId true)

end Requests

/-- The two kinds of configuration. -/
inductive Configuration where
  | motor
  | app
  deriving DecidableEq, Repr

namespace Configuration

def file : Configuration → ConfigFile
  | motor => mcconf
  | app => appconf

def getClass : Configuration → MessageClass
  | motor => Messages.getMotorConfig
  | app => Messages.getAppConfig

def setClass : Configuration → MessageClass
  | motor => Messages.setMotorConfig
  | app => Messages.setAppConfig

def field : Configuration → Field
  | motor => ⟨"mcconf", .s, some (-1)⟩
  | app => ⟨"appconf", .s, some (-1)⟩

variable (crc : Bytes → UInt16) (line : Line) (waiting : Bytes) (canId : Option ℕ)

def fetch : Configuration → List Bytes × Py (Option Response)
  | motor => getMotorConfiguration crc line waiting canId
  | app => getAppConfiguration crc line waiting canId

def store (data : PyVal) : Configuration → List Bytes × Py (Option Response)
  | motor => setMotorConfiguration crc line waiting canId data
  | app => setAppConfiguration crc line waiting canId data

theorem loneString (c : Configuration) : LoneString Messages.registry c.getClass c.field := by
  cases c with
  | motor => exact Messages.loneString_getMotorConfig
  | app => exact ⟨rfl, by decide, rfl, rfl⟩

/-! ### Fetching -/

/-- The payload of the request, which another controller gets by way of the CAN bus. -/
def requestPayload (c : Configuration) : Bytes :=
  canId.elim [] (fun n => [34, UInt8.ofNat n]) ++ [UInt8.ofNat c.getClass.id]

variable {crc line waiting canId}

theorem pack_request (c : Configuration) (hcan : ∀ n ∈ canId, n ≤ 255) :
    pack ⟨c.getClass, canId, []⟩ false true = .ok (c.requestPayload canId) := by
  have hdirect : pack ⟨c.getClass, none, []⟩ false true = .ok [UInt8.ofNat c.getClass.id] := by
    cases c <;> decide +kernel
  cases canId with
  | none => exact hdirect
  | some n =>
    have hstring : (packTable c.getClass true).stringField = none := by cases c <;> rfl
    exact pack_forwarded ⟨c.getClass, none, []⟩ true (hcan n rfl) hstring hdirect

theorem fetch_eq (c : Configuration) (hcan : ∀ n ∈ canId, n ≤ 255) :
    c.fetch crc line waiting canId = ([frameBytes crc (c.requestPayload canId)],
      read crc Messages.registry line .string) := by
  have hframable : Framable (c.requestPayload canId) := by
    constructor
    · exact List.append_ne_nil_of_right_ne_nil _ (List.cons_ne_nil _ _)
    · cases canId with
      | none => exact Nat.one_lt_ofNat
      | some n =>
        change 3 < 65536
        omega
  have hencode : (do encode crc (← c.getClass.call [] canId true) : Py Bytes) =
      .ok (frameBytes crc (c.requestPayload canId)) := by
    have hcall : c.getClass.call [] canId true = .ok ⟨c.getClass, canId, []⟩ := by
      cases c <;> rfl
    rw [hcall, ok_bind, encode, c.pack_request hcan, ok_bind, frame_eq crc hframable]
  have hfetch : c.fetch crc line waiting canId =
      stringRequest crc line waiting (c.getClass.call [] canId true) := by
    cases c <;> rfl
  rw [hfetch, stringRequest, hencode, write_eq_read]

end Configuration

theorem complete_all (crc : Bytes → UInt16) (ps : List Bytes) :
    complete crc ps (ps.map (frameBytes crc)).flatten.length = ps := by
  induction ps with
  | nil => rfl
  | cons p ps ih =>
    rw [complete, List.map_cons, List.flatten_cons, List.length_append,
      if_pos (Nat.le_add_right _ _), Nat.add_sub_cancel_left, ih]

/-- What is drained from the beginning of a stream of frames. -/
theorem drain_complete {crc : Bytes → UInt16} {ps : List Bytes} (hps : ∀ p ∈ ps, Framable p)
    {v : Bytes} (hv : v <+: (ps.map (frameBytes crc)).flatten) :
    ((unframeScanner crc).drain v).1 = complete crc ps v.length ∧
      (complete crc ps v.length = ps ↔ v = (ps.map (frameBytes crc)).flatten) := by
  have hflat : [v].flatten = v := List.flatten_singleton
  have hreceived := Scanner.received_receive (reads_isPacket crc) (isPacket_framed crc hps) [v]
    (by rw [hflat, stream_framed]; exact hv)
  rw [hflat] at hreceived
  obtain ⟨hcomplete, hstream⟩ := complete_received crc hreceived
  refine ⟨hcomplete, fun hall => ?_, fun hall => ?_⟩
  · rw [hall] at hstream
    exact (List.IsPrefix.eq_of_length_le ⟨_, hstream.symm⟩ hv.length_le).symm
  · rw [hall, complete_all]

namespace Configuration

/-- A configuration is fetched as far as its parts have arrived whole when the read ends: `got` are
the parts whose frames lie within what has arrived. The read ends at the deadline or when the line
has been quiet for too long. -/
theorem fetched_as_arrived (crc : Bytes → UInt16) (c : Configuration) {canId : Option ℕ}
    (hcan : ∀ n ∈ canId, n ≤ 255) {parts : List Bytes} (hlen : ∀ s ∈ parts, 1 + s.length < 65536)
    {line : Line} (hline : ∀ k, line.arrived k <+:
      (parts.map fun s => frameBytes crc (UInt8.ofNat c.getClass.id :: s)).flatten)
    (waiting : Bytes) :
    ∃ k r, FiniteLoop.EndsAfter (readTurn crc Messages.registry line .string)
        (0, ⟨[], none, none⟩) k r ∧
      (line.start + 1 / 2 ≤ (line.polls k).check ∨
        ∃ tQuiet, lastArrival ((List.range k).map line.polls) = some tQuiet ∧
          1 / 10 < (line.polls k).now - tQuiet) ∧
      ∃ got rest, parts = got ++ rest ∧
        (got.map fun s => UInt8.ofNat c.getClass.id :: s) =
          complete crc (parts.map fun s => UInt8.ofNat c.getClass.id :: s)
            (line.arrived k).length ∧
        c.fetch crc line waiting canId = ([frameBytes crc (c.requestPayload canId)],
          .ok (if got = [] then none else some (.byteString got.flatten))) ∧
        (rest = [] ↔ line.arrived k =
          (parts.map fun s => frameBytes crc (UInt8.ofNat c.getClass.id :: s)).flatten) := by
  let payloads := parts.map (partPayload c.getClass)
  have hframable : ∀ p ∈ payloads, Framable p := by
    intro p hp
    obtain ⟨s, hs, rfl⟩ := List.mem_map.mp hp
    have hshort := hlen s hs
    refine ⟨List.cons_ne_nil _ _, ?_⟩
    rw [partPayload, List.length_cons]
    omega
  have hframes : (parts.map fun s => frameBytes crc (UInt8.ofNat c.getClass.id :: s)) =
      payloads.map (frameBytes crc) := by
    rw [List.map_map]
    rfl
  rw [hframes] at hline ⊢
  obtain ⟨k, hk⟩ :=
    (readLoop crc Messages.registry line .string).exists_endsAfter (0, ⟨[], none, none⟩)
  obtain ⟨hread, hquiet⟩ := read_string rfl rfl hk
  obtain ⟨hdrain, hwhole⟩ := drain_complete hframable (hline k)
  have htake := List.prefix_iff_eq_take.mp (isPrefix_complete crc payloads (line.arrived k).length)
  let n := (complete crc payloads (line.arrived k).length).length
  have hgot : complete crc payloads (line.arrived k).length =
      (parts.take n).map (partPayload c.getClass) := by
    rw [List.map_take]
    exact htake
  rw [hgot] at hdrain hwhole
  obtain ⟨_, _, hdecode⟩ := decode_drained c.loneString (by cases c <;> rfl) hdrain
  rw [hdecode, ok_bind] at hread
  refine ⟨k, _, hk, ?_, parts.take n, parts.drop n, (List.take_append_drop n parts).symm, hgot.symm,
    ?_, ?_⟩
  · by_cases hcheck : (line.polls k).check < line.start + 1 / 2
    · exact Or.inr (hquiet hcheck)
    · exact Or.inl (le_of_not_gt hcheck)
  · rw [c.fetch_eq hcan, hread]
    rfl
  · rw [← hwhole]
    constructor
    · intro hrest
      rw [List.take_of_length_le (List.drop_eq_nil_iff.mp hrest)]
    · intro hall
      have hlength := congrArg List.length hall
      rw [List.length_map, List.length_map, List.length_take] at hlength
      exact List.drop_eq_nil_of_le (by omega)

/-- The second of two parts does not arrive. -/
theorem fetched_as_arrived_half :
    getAppConfiguration Crc16.xmodem (.burst (frameBytes Crc16.xmodem [17, 1])) [] none =
      ([frameBytes Crc16.xmodem [17]], .ok (some (.byteString [1]))) := by
  have hline : ∀ k, (Line.burst (frameBytes Crc16.xmodem [17, 1])).arrived k <+:
      ([[1], [2]].map fun s => frameBytes Crc16.xmodem (17 :: s)).flatten :=
    fun k => (arrived_burst _ k).trans (List.prefix_append _ _)
  obtain ⟨k, _, _, hends, got, rest, _, hgot, hfetch, _⟩ :=
    @fetched_as_arrived Crc16.xmodem app none (by simp) [[1], [2]] (by decide) _ hline []
  cases k with
  | zero =>
    rcases hends with hdeadline | ⟨_, harrival, _⟩
    · norm_num [Line.burst] at hdeadline
    · cases harrival
  | succ k =>
    rw [arrived_burst_succ] at hgot
    have hone : complete Crc16.xmodem ([[1], [2]].map fun s => UInt8.ofNat app.getClass.id :: s)
        (frameBytes Crc16.xmodem [17, 1]).length =
          [[1]].map fun s => UInt8.ofNat app.getClass.id :: s := by decide +kernel
    cases List.map_injective_iff.mpr (fun _ _ h => (List.cons.inj h).2) (hgot.trans hone)
    exact hfetch

end Configuration

/-! ### Writing back -/

namespace ConfigParam

/-- The field of full width for the number that some bytes stand for. -/
def filled (kind : ConfigParam) (bs : Bytes) : Bytes :=
  BigEndian.ofNat kind.width (BigEndian.toNat bs)

theorem length_filled (kind : ConfigParam) (bs : Bytes) :
    (kind.filled bs).length = kind.width := BigEndian.length_ofNat _ _

theorem filled_eq {kind : ConfigParam} {bs : Bytes} (hlen : bs.length = kind.width) :
    kind.filled bs = bs := by
  rw [filled, ← hlen, BigEndian.ofNat_toNat]

/-- A float that lacks bytes is read as the full field would be. -/
theorem deserialise_filled {kind : ConfigParam} {bs : Bytes} (hlen : bs.length ≤ kind.width)
    {value : PyVal} (h : kind.deserialise bs = .ok value) :
    kind.deserialise (kind.filled bs) = .ok value := by
  by_cases hfull : bs.length = kind.width
  · rw [filled_eq hfull]
    exact h
  · by_cases hkind : kind = .double32Auto
    · subst hkind
      have hword : BigEndian.toNat bs < 256 ^ 4 :=
        (BigEndian.toNat_lt bs).trans_le (Nat.pow_le_pow_right (by decide) hlen)
      cases h
      exact congrArg (fun w => Except.ok (PyVal.float (ParamDouble32Auto.decode w)))
        (BigEndian.toNat_ofNat hword)
    · obtain ⟨message, hmessage⟩ := deserialise_cut hkind hfull
      rw [hmessage] at h
      cases h

/-- What has been written once is written again as it is. -/
theorem rewritten_rewritten {kind : ConfigParam} {bs : Bytes} (hlen : bs.length = kind.width) :
    kind.rewritten (kind.rewritten bs) = kind.rewritten bs := by
  refine (rewritten_eq_iff (length_rewritten hlen)).mpr ⟨fun hbool => ?_, fun hauto => ?_⟩
  · rw [rewritten, if_pos hbool]
    by_cases hzero : bs = [0]
    · exact Or.inl (by rw [if_pos hzero])
    · exact Or.inr (by rw [if_neg hzero])
  · subst hauto
    rw [rewritten, if_neg (by decide), kept]
    by_cases hsmall : |ParamDouble32Auto.decode (BigEndian.toNat bs)| < ParamDouble32Auto.smallest
    · exact Or.inl (if_pos ⟨rfl, hsmall⟩)
    · rw [if_neg fun h => hsmall h.2]
      exact Or.inr (le_of_not_gt hsmall)

end ConfigParam

theorem map_fst_configFields (kinds : List ConfigParam) (buffer : Bytes) :
    (configFields kinds buffer).map Prod.fst = kinds := by
  induction kinds generalizing buffer with
  | nil => rfl
  | cons kind kinds ih => rw [configFields, List.map_cons, ih]

theorem length_le_of_mem_configFields {kinds : List ConfigParam} {buffer : Bytes} :
    ∀ f ∈ configFields kinds buffer, f.2.length ≤ f.1.width := by
  induction kinds generalizing buffer with
  | nil => exact fun f hf => absurd hf List.not_mem_nil
  | cons kind kinds ih =>
    intro f hf
    rcases List.mem_cons.mp hf with rfl | hf
    · exact List.length_take_le _ _
    · exact ih f hf

namespace ConfigFile

/-- The fields that are written for the parameters that were read from a buffer. -/
def rewrittenFields (file : ConfigFile) (buffer : Bytes) : List Bytes :=
  (configFields (file.params.map Prod.fst) buffer).map fun f => f.1.rewritten (f.1.filled f.2)

theorem Contents.serialise_filled {file : ConfigFile} {buffer : Bytes} {params : List NamedParam}
    (h : Contents file.params buffer params) :
    params.mapM NamedParam.serialise = .ok (file.rewrittenFields buffer) := by
  apply mapM_eq_ok_of_forall₂
  rw [rewrittenFields, List.forall₂_map_right_iff]
  obtain ⟨hcount, hvalues⟩ := List.forall₂_iff_zip.mp h.values
  refine List.forall₂_iff_zip.mpr ⟨hcount, fun {param field} hmem => ?_⟩
  obtain ⟨hkind, value, hvalue, hread⟩ := hvalues hmem
  have hle := length_le_of_mem_configFields field (List.of_mem_zip hmem).2
  rw [← hkind] at hle ⊢
  exact NamedParam.serialise_of_readFrom (param.kind.length_filled _)
    ⟨value, hvalue, ConfigParam.deserialise_filled hle hread⟩

variable {file : ConfigFile} {conf : Bytes}

/-- A configuration that a reader accepts is written back as its full file. -/
theorem serialise_contents (hsignature : BigEndian.toNat (conf.take 4) = file.signature)
    (hfour : 4 ≤ conf.length) {params : List NamedParam}
    (h : Contents file.params (conf.drop 4) params) :
    file.serialise params = .ok (conf.take 4 ++ (file.rewrittenFields (conf.drop 4)).flatten) := by
  have htake : BigEndian.ofNat 4 file.signature = conf.take 4 := by
    have hbytes := BigEndian.ofNat_toNat (conf.take 4)
    rw [List.length_take_of_le hfour, hsignature] at hbytes
    exact hbytes
  rw [serialise_own (nodup_names h.entry) (List.Subset.refl _) h.entry, h.serialise_filled, ok_bind,
    htake]
  rfl

theorem rewrittenFields_widths (buffer : Bytes) :
    List.Forall₂ (fun kind field => field.length = ConfigParam.width kind)
      (file.params.map Prod.fst) (file.rewrittenFields buffer) := by
  have hfields : List.Forall₂ (fun kind field => field.length = ConfigParam.width kind)
      ((configFields (file.params.map Prod.fst) buffer).map Prod.fst)
      (file.rewrittenFields buffer) := by
    rw [rewrittenFields, List.forall₂_map_left_iff, List.forall₂_map_right_iff, List.forall₂_same]
    exact fun f _ => ConfigParam.length_rewritten (f.1.length_filled f.2)
  rw [map_fst_configFields] at hfields
  exact hfields

/-- The fields of what has been written are written again as they are. -/
theorem rewrittenFields_rewritten (buffer : Bytes) :
    file.rewrittenFields (file.rewrittenFields buffer).flatten = file.rewrittenFields buffer := by
  let fields := configFields (file.params.map Prod.fst) buffer
  have hfields := (configFields_flatten (file.rewrittenFields_widths buffer) []).2
  have hzip : (file.params.map Prod.fst).zip (file.rewrittenFields buffer) =
      fields.map fun f => (f.1, f.1.rewritten (f.1.filled f.2)) := by
    rw [← map_fst_configFields (file.params.map Prod.fst) buffer]
    exact List.zip_map'
  rw [List.append_nil, hzip] at hfields
  rw [rewrittenFields, hfields, List.map_map]
  apply List.map_congr_left
  intro f _
  have hlen := ConfigParam.length_rewritten (f.1.length_filled f.2)
  change f.1.rewritten (f.1.filled (f.1.rewritten (f.1.filled f.2))) = _
  rw [ConfigParam.filled_eq hlen, ConfigParam.rewritten_rewritten (f.1.length_filled f.2)]

end ConfigFile

/-! ### Storing -/

namespace Configuration

/-- A stored configuration reaches the controller as it is. -/
theorem sent_as_given (c : Configuration) (content : Bytes) :
    pack ⟨c.setClass, none, [(c.field.name, .bytes content)]⟩ false true =
        .ok (partPayload c.setClass content) ∧
      ∃ msg, VESCMessage.unpack Messages.registry (partPayload c.setClass content) true =
          .ok msg ∧ msg.cls = c.setClass ∧ msg.getattr c.field.name = .ok (.bytes content) := by
  let row : Row := ⟨c.field, .bytes content, .bytes content⟩
  have hformat : c.field.format = .s := by cases c <;> rfl
  have hscalar : c.field.scalar = some (-1) := by cases c <;> rfl
  have hdecl : c.setClass.declared true = some ([row].map Row.field) := by cases c <;> rfl
  have hint : IntegerFields ([row].map Row.field) := by
    refine ⟨List.nodup_singleton _, ?_, List.countP_le_length⟩
    exact List.forall_mem_singleton.mpr (Or.inl hformat)
  have hall : AllScaled c.setClass ([row].map Row.field) := by
    refine ⟨List.forall_mem_singleton.mpr ?_, ⟨_, hdecl, fun i f hf => ⟨f, hf, ?_⟩⟩, ?_⟩
    · rw [hscalar]
      exact Option.some_ne_none _
    · have hmem := List.mem_singleton.mp (List.mem_of_getElem? hf)
      subst hmem
      have hisS : c.field.format.isS = true := by rw [hformat]; rfl
      exact iff_of_true hisS (Or.inl hisS)
    · intro _ f hf hnot
      rw [List.mem_singleton.mp hf, hformat] at hnot
      cases hnot
  have huniform : UniformScalars c.setClass ([row].map Row.field) :=
    ⟨by cases c <;> decide, Or.inr hall⟩
  have hrow : ∀ r ∈ [row], Message.getattr ⟨c.setClass, none, [(c.field.name, .bytes content)]⟩
      r.name = .ok r.value ∧ r.Sends := by
    refine List.forall_mem_singleton.mpr ⟨?_, .byteString hformat hscalar⟩
    cases c <;> rfl
  obtain ⟨payload, msg, hpack, hbytes, hunpack, hcls, hgets⟩ :=
    keepsScalars_of_uniform hdecl hint huniform Messages.registry
      ⟨c.setClass, none, [(c.field.name, .bytes content)]⟩ [row] (by cases c <;> rfl) rfl rfl hdecl
      hrow
  have hpayload : payload = partPayload c.setClass content := by
    have hid : (StructFormat.Format.int .B).pack (.int c.setClass.id) =
        some [UInt8.ofNat c.setClass.id] := by
      cases c <;> decide
    have hitem : row.format.pack row.item = some content := by
      rw [Row.format, hformat]
      exact pack_bytes content
    rw [List.map_singleton, List.map_singleton] at hbytes
    simp only [StructFormat.pack, hid, hitem] at hbytes
    have hsome : UInt8.ofNat c.setClass.id :: (content ++ []) = payload := Option.some.inj hbytes
    rw [List.append_nil] at hsome
    exact hsome.symm
  rw [hpayload] at hpack hunpack
  refine ⟨hpack, msg, hunpack, hcls, ?_⟩
  obtain ⟨w, hw, hget, _⟩ := hgets row (List.mem_singleton_self row)
  cases hget with
  | byteString => exact hw
  | text _ hminus _ => exact absurd hscalar hminus

theorem width_lt (c : Configuration) : configWidth (c.file.params.map Prod.fst) < 65000 := by
  cases c with
  | motor =>
    change configWidth (mcconf.params.map Prod.fst) < 65000
    rw [widths_mcconf.2]
    decide
  | app =>
    change configWidth (appconf.params.map Prod.fst) < 65000
    rw [widths_appconf.2]
    decide

theorem store_eq (crc : Bytes → UInt16) (c : Configuration) (line : Line) (waiting : Bytes)
    {content : Bytes} (hlen : 1 + content.length < 65536) :
    c.store crc line waiting none (.bytes content) =
      ([frameBytes crc (partPayload c.setClass content)],
        read crc Messages.registry line .string) := by
  have hframable : Framable (partPayload c.setClass content) := by
    refine ⟨List.cons_ne_nil _ _, ?_⟩
    rw [partPayload, List.length_cons]
    omega
  have hcall : c.setClass.call [.bytes content] none true =
      .ok ⟨c.setClass, none, [(c.field.name, .bytes content)]⟩ := by
    cases c <;> rfl
  have hencode : (do encode crc (← c.setClass.call [.bytes content] none true) : Py Bytes) =
      .ok (frameBytes crc (partPayload c.setClass content)) := by
    rw [hcall, ok_bind, encode, (c.sent_as_given content).1, ok_bind, frame_eq crc hframable]
  have hstore : c.store crc line waiting none (.bytes content) =
      stringRequest crc line waiting (c.setClass.call [.bytes content] none true) := by
    cases c <;> rfl
  rw [hstore, stringRequest, hencode, write_eq_read]

theorem store_forwarded (crc : Bytes → UInt16) (c : Configuration) (line : Line) (waiting : Bytes)
    (n : ℕ) (content : Bytes) :
    c.store crc line waiting (some n) (.bytes content) = ([], .error .unboundLocalError) := by
  have hstring : (packTable c.setClass true).stringField ≠ none := by
    cases c <;> exact Option.some_ne_none _
  have hpack := pack_string_forwarded ⟨c.setClass, none, [(c.field.name, .bytes content)]⟩ true n
    hstring (c.sent_as_given content).1
  have hcall : c.setClass.call [.bytes content] (some n) true =
      .ok ⟨c.setClass, some n, [(c.field.name, .bytes content)]⟩ := by
    cases c <;> rfl
  have hencode : (do encode crc (← c.setClass.call [.bytes content] (some n) true) : Py Bytes) =
      .error .unboundLocalError := by
    rw [hcall, ok_bind, encode]
    exact congrArg (fun payload => payload >>= frame crc) hpack
  have hstore : c.store crc line waiting (some n) (.bytes content) =
      stringRequest crc line waiting (c.setClass.call [.bytes content] (some n) true) := by
    cases c <;> rfl
  rw [hstore, stringRequest, hencode]

/-- What is read of a configuration that may lack its last floats, is written as a whole file. It
reaches the controller that way, unless by way of the CAN bus, and written back again it stays as
it is. -/
theorem written_back (crc : Bytes → UInt16) (c : Configuration) {conf : Bytes}
    (hsignature : BigEndian.toNat (conf.take 4) = c.file.signature)
    (hlen : 4 + checkedWidth (c.file.params.map Prod.fst) ≤ conf.length) :
    ∃ params written, c.file.deserialise conf =
        .ok (some params, conf.drop (4 + configWidth (c.file.params.map Prod.fst))) ∧
      c.file.serialise params = .ok written ∧
      written = conf.take 4 ++ (configFields (c.file.params.map Prod.fst) (conf.drop 4)).flatMap
        (fun f => f.1.rewritten (f.1.filled f.2)) ∧
      written.length = 4 + configWidth (c.file.params.map Prod.fst) ∧
      (∀ line waiting, (c.store crc line waiting none (.bytes written)).1 =
          [frameBytes crc (UInt8.ofNat c.setClass.id :: written)] ∧
        ∀ n, c.store crc line waiting (some n) (.bytes written) =
          ([], .error .unboundLocalError)) ∧
      (∃ msg, VESCMessage.unpack Messages.registry (UInt8.ofNat c.setClass.id :: written) true =
          .ok msg ∧ msg.cls = c.setClass ∧ msg.getattr c.field.name = .ok (.bytes written)) ∧
      ∃ params', c.file.deserialise written = .ok (some params', []) ∧
        c.file.serialise params' = .ok written := by
  have hfour : 4 ≤ conf.length := (Nat.le_add_right 4 _).trans hlen
  obtain ⟨hcut, _⟩ | ⟨_, params, hread, hparams⟩ := ConfigFile.deserialise_cases hsignature
  · rw [List.length_drop] at hcut
    omega
  have hwrite := ConfigFile.serialise_contents hsignature hfour hparams
  let fields := c.file.rewrittenFields (conf.drop 4)
  have htake : (conf.take 4).length = 4 := List.length_take_of_le hfour
  have hwidth : configWidth (c.file.params.map Prod.fst) = fields.flatten.length :=
    (ConfigFile.configFields_flatten (c.file.rewrittenFields_widths (conf.drop 4)) []).1
  have hwritten : (conf.take 4 ++ fields.flatten).length =
      4 + configWidth (c.file.params.map Prod.fst) := by
    rw [List.length_append, htake, hwidth]
  have hsame : BigEndian.toNat ((conf.take 4 ++ fields.flatten).take 4) = c.file.signature := by
    rw [List.take_left' htake, hsignature]
  have hdrop : (conf.take 4 ++ fields.flatten).drop 4 = fields.flatten := List.drop_left' htake
  have hshort := c.width_lt
  refine ⟨params, _, hread, hwrite, rfl, hwritten, fun line waiting => ⟨?_, fun n => ?_⟩,
    (c.sent_as_given _).2, ?_⟩
  · have hone : 1 + (conf.take 4 ++ fields.flatten).length < 65536 := by omega
    rw [c.store_eq crc line waiting hone]
    rfl
  · exact c.store_forwarded crc line waiting n _
  · obtain ⟨hcut, _⟩ | ⟨_, params', hread', hparams'⟩ := ConfigFile.deserialise_cases hsame
    · have hchecked := checkedWidth_le (c.file.params.map Prod.fst)
      rw [hdrop] at hcut
      omega
    · refine ⟨params', ?_, ?_⟩
      · rw [hread', List.drop_eq_nil_of_le hwritten.le]
      · have hfile : 4 ≤ (conf.take 4 ++ fields.flatten).length := by omega
        rw [ConfigFile.serialise_contents hsame hfile hparams', List.take_left' htake, hdrop,
          ConfigFile.rewrittenFields_rewritten]

/-- An application configuration of zeros without its last 13 floats. -/
def cutAppconf : Bytes := BigEndian.ofNat 4 APPCONF_SIGNATURE ++ List.replicate 437 0

theorem written_back_cutAppconf : ∃ params written,
    appconf.deserialise cutAppconf = .ok (some params, []) ∧
      appconf.serialise params = .ok written ∧ written.length = 493 ∧
      ∀ line waiting, (setAppConfiguration Crc16.xmodem line waiting none (.bytes written)).1 =
        [frameBytes Crc16.xmodem (16 :: written)] := by
  have hwidth : configWidth (app.file.params.map Prod.fst) = 489 := widths_appconf.2
  have hlen : cutAppconf.length = 441 := by decide +kernel
  obtain ⟨params, written, hread, hwrite, _, hlength, hstore, _⟩ :=
    @written_back Crc16.xmodem app cutAppconf (by decide +kernel) (by decide +kernel)
  rw [hwidth] at hread hlength
  rw [List.drop_eq_nil_of_le (by omega)] at hread
  exact ⟨params, written, hread, hwrite, hlength, fun line waiting => (hstore line waiting).1⟩

end Configuration

end PyVesc
