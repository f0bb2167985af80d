import PyVesc.ConfigParam

/-!
# The generated readers and writers of a configuration

`params/confgenerator.py`: a signature, and then the parameters one after another. A reader pops
them in the order of its file. A writer takes a list of parameters in any order and looks each of
its own up by the name.
-/

namespace PyVesc

def MCCONF_SIGNATURE : ℕ := 776184161

def APPCONF_SIGNATURE : ℕ := 486554156

/-- A parameter object: its class, its name and its value, which is `None` before it is read. -/
structure NamedParam where
  kind : ConfigParam
  name : String
  value : Option PyVal
  deriving DecidableEq, Repr

/-- `None` packs as a truth value and is no number. -/
def NamedParam.serialise (param : NamedParam) : Py Bytes :=
  match param.value with
  | some value => param.kind.serialise value
  | none => if param.kind = .bool then .ok [0] else .error (.typeError "")

/-- The signature of a kind of configuration, and its parameters in order. -/
structure ConfigFile where
  signature : ℕ
  params : List (ConfigParam × String)
  signature_lt : signature < 256 ^ 4
  nodup : (params.map Prod.snd).Nodup

namespace ConfigFile

/-- The readers: `False` for another signature, here `none`, and otherwise the parameters. What is
left in the buffer comes with the result. -/
def deserialise (file : ConfigFile) (buffer : Bytes) : Py (Option (List NamedParam) × Bytes) :=
  let (popped, buffer) := bufferPop buffer 4
  if BigEndian.toNat popped ≠ file.signature then .ok (none, buffer)
  else do
    let (params, buffer) ← pops file.params buffer
    return (some params, buffer)
where
  /-- A parameter is constructed, its bytes are popped, and it deserialises them. -/
  pops : List (ConfigParam × String) → Bytes → Py (List NamedParam × Bytes)
    | [], buffer => .ok ([], buffer)
    | (kind, name) :: entries, buffer => do
      let (popped, buffer) := bufferPop buffer kind.width
      let value ← kind.deserialise popped
      let (params, buffer) ← pops entries buffer
      return (⟨kind, name, some value⟩ :: params, buffer)

/-- `[param.serialise() for param in params if param.name == name][0]`. -/
def serialiseNamed (params : List NamedParam) (name : String) : Py Bytes := do
  let serialised ← (params.filter fun param => param.name = name).mapM NamedParam.serialise
  match serialised with
  | [] => .error .indexError
  | bs :: _ => return bs

/-- The writers. -/
def serialise (file : ConfigFile) (params : List NamedParam) : Py Bytes := do
  let buffer ← file.params.mapM fun entry => serialiseNamed params entry.2
  return BigEndian.ofNat 4 file.signature ++ buffer.flatten

end ConfigFile

/-- The bytes of a name as a number. Different numbers are told apart faster than names. -/
def nameCode (name : String) : ℕ :=
  name.toByteArray.data.toList.foldl (fun code b => code * 256 + b.toNat) 0

def mcconf : ConfigFile where
  signature := MCCONF_SIGNATURE
  params := [
    (.bool, "pwm_mode"), (.bool, "comm_mode"), (.bool, "motor_type"), (.bool, "sensor_mode"),
    (.double32Auto, "l_current_max"), (.double32Auto, "l_current_min"),
    (.double32Auto, "l_in_current_max"), (.double32Auto, "l_in_current_min"),
    (.double32Auto, "l_abs_current_max"), (.double32Auto, "l_min_erpm"),
    (.double32Auto, "l_max_erpm"), (.double16, "l_erpm_start"),
    (.double32Auto, "l_max_erpm_fbrake"), (.double32Auto, "l_max_erpm_fbrake_cc"),
    (.double32Auto, "l_min_vin"), (.double32Auto, "l_max_vin"),
    (.double32Auto, "l_battery_cut_start"), (.double32Auto, "l_battery_cut_end"),
    (.bool, "l_slow_abs_current"), (.double16, "l_temp_fet_start"), (.double16, "l_temp_fet_end"),
    (.double16, "l_temp_motor_start"), (.double16, "l_temp_motor_end"),
    (.double16, "l_temp_accel_dec"), (.double16, "l_min_duty"), (.double16, "l_max_duty"),
    (.double32Auto, "l_watt_max"), (.double32Auto, "l_watt_min"),
    (.double16, "l_current_max_scale"), (.double16, "l_current_min_scale"),
    (.double16, "l_duty_start"), (.double32Auto, "sl_min_erpm"),
    (.double32Auto, "sl_min_erpm_cycle_int_limit"),
    (.double32Auto, "sl_max_fullbreak_current_dir_change"), (.double16, "sl_cycle_int_limit"),
    (.double16, "sl_phase_advance_at_br"), (.double32Auto, "sl_cycle_int_rpm_br"),
    (.double32Auto, "sl_bemf_coupling_k"), (.int8, "hall_table[0]"), (.int8, "hall_table[1]"),
    (.int8, "hall_table[2]"), (.int8, "hall_table[3]"), (.int8, "hall_table[4]"),
    (.int8, "hall_table[5]"), (.int8, "hall_table[6]"), (.int8, "hall_table[7]"),
    (.double32Auto, "hall_sl_erpm"), (.double32Auto, "foc_current_kp"),
    (.double32Auto, "foc_current_ki"), (.double32Auto, "foc_f_zv"), (.double32Auto, "foc_dt_us"),
    (.bool, "foc_encoder_inverted"), (.double32Auto, "foc_encoder_offset"),
    (.double32Auto, "foc_encoder_ratio"), (.bool, "foc_sensor_mode"),
    (.double32Auto, "foc_pll_kp"), (.double32Auto, "foc_pll_ki"), (.double32Auto, "foc_motor_l"),
    (.double32Auto, "foc_motor_ld_lq_diff"), (.double32Auto, "foc_motor_r"),
    (.double32Auto, "foc_motor_flux_linkage"), (.double32Auto, "foc_observer_gain"),
    (.double32Auto, "foc_observer_gain_slow"), (.double16, "foc_observer_offset"),
    (.double32Auto, "foc_duty_dowmramp_kp"), (.double32Auto, "foc_duty_dowmramp_ki"),
    (.double16, "foc_start_curr_dec"), (.double32Auto, "foc_start_curr_dec_rpm"),
    (.double32Auto, "foc_openloop_rpm"), (.double16, "foc_openloop_rpm_low"),
    (.double16, "foc_d_gain_scale_start"), (.double16, "foc_d_gain_scale_max_mod"),
    (.double16, "foc_sl_openloop_hyst"), (.double16, "foc_sl_openloop_time_lock"),
    (.double16, "foc_sl_openloop_time_ramp"), (.double16, "foc_sl_openloop_time"),
    (.double16, "foc_sl_openloop_boost_q"), (.double16, "foc_sl_openloop_max_q"),
    (.uInt8, "foc_hall_table[0]"), (.uInt8, "foc_hall_table[1]"), (.uInt8, "foc_hall_table[2]"),
    (.uInt8, "foc_hall_table[3]"), (.uInt8, "foc_hall_table[4]"), (.uInt8, "foc_hall_table[5]"),
    (.uInt8, "foc_hall_table[6]"), (.uInt8, "foc_hall_table[7]"),
    (.double32Auto, "foc_hall_interp_erpm"), (.double32Auto, "foc_sl_erpm"),
    (.bool, "foc_sample_v0_v7"), (.bool, "foc_sample_high_current"), (.bool, "foc_sat_comp_mode"),
    (.double16, "foc_sat_comp"), (.bool, "foc_temp_comp"), (.double16, "foc_temp_comp_base_temp"),
    (.double16, "foc_current_filter_const"), (.bool, "foc_cc_decoupling"),
    (.bool, "foc_observer_type"), (.double16, "foc_hfi_voltage_start"),
    (.double16, "foc_hfi_voltage_run"), (.double16, "foc_hfi_voltage_max"),
    (.double16, "foc_hfi_gain"), (.double16, "foc_hfi_hyst"), (.double32Auto, "foc_sl_erpm_hfi"),
    (.uInt16, "foc_hfi_start_samples"), (.double32Auto, "foc_hfi_obs_ovr_sec"),
    (.bool, "foc_hfi_samples"), (.bool, "foc_offsets_cal_on_boot"),
    (.double32Auto, "foc_offsets_current[0]"), (.double32Auto, "foc_offsets_current[1]"),
    (.double32Auto, "foc_offsets_current[2]"), (.double16, "foc_offsets_voltage[0]"),
    (.double16, "foc_offsets_voltage[1]"), (.double16, "foc_offsets_voltage[2]"),
    (.double16, "foc_offsets_voltage_undriven[0]"), (.double16, "foc_offsets_voltage_undriven[1]"),
    (.double16, "foc_offsets_voltage_undriven[2]"), (.bool, "foc_phase_filter_enable"),
    (.bool, "foc_phase_filter_disable_fault"), (.double32Auto, "foc_phase_filter_max_erpm"),
    (.bool, "foc_mtpa_mode"), (.double32Auto, "foc_fw_current_max"),
    (.double16, "foc_fw_duty_start"), (.double16, "foc_fw_ramp_time"),
    (.double16, "foc_fw_q_current_factor"), (.bool, "foc_speed_soure"),
    (.int16, "gpd_buffer_notify_left"), (.int16, "gpd_buffer_interpol"),
    (.double16, "gpd_current_filter_const"), (.double32Auto, "gpd_current_kp"),
    (.double32Auto, "gpd_current_ki"), (.bool, "sp_pid_loop_rate"), (.double32Auto, "s_pid_kp"),
    (.double32Auto, "s_pid_ki"), (.double32Auto, "s_pid_kd"), (.double16, "s_pid_kd_filter"),
    (.double32Auto, "s_pid_min_erpm"), (.bool, "s_pid_allow_braking"),
    (.double32Auto, "s_pid_ramp_erpms_s"), (.double32Auto, "p_pid_kp"),
    (.double32Auto, "p_pid_ki"), (.double32Auto, "p_pid_kd"), (.double32Auto, "p_pid_kd_proc"),
    (.double16, "p_pid_kd_filter"), (.double32Auto, "p_pid_ang_div"),
    (.double16, "p_pid_gain_dec_angle"), (.double32Auto, "p_pid_offset"),
    (.double16, "cc_startup_boost_duty"), (.double32Auto, "cc_min_current"),
    (.double32Auto, "cc_gain"), (.double16, "cc_ramp_step_max"), (.int32, "m_fault_stop_time_ms"),
    (.double16, "m_duty_ramp_step"), (.double32Auto, "m_current_backoff_gain"),
    (.uInt32, "m_encoder_counts"), (.double16, "m_encoder_sin_amp"),
    (.double16, "m_encoder_cos_amp"), (.double16, "m_encoder_sin_offset"),
    (.double16, "m_encoder_cos_offset"), (.double16, "m_encoder_sincos_filter_constant"),
    (.double16, "m_encoder_sincos_phase_correction"), (.bool, "m_sensor_port_mode"),
    (.bool, "m_invert_direction"), (.bool, "m_drv8301_oc_mode"), (.uInt8, "m_drv8301_oc_adj"),
    (.double32Auto, "m_bldc_f_sw_min"), (.double32Auto, "m_bldc_f_sw_max"),
    (.double32Auto, "m_dc_f_sw"), (.double32Auto, "m_ntc_motor_beta"), (.bool, "m_out_aux_mode"),
    (.bool, "m_motor_temp_sens_type"), (.double32Auto, "m_ptc_motor_coeff"),
    (.double16, "m_ntcx_ptcx_res"), (.double16, "m_ntcx_ptcx_temp_base"),
    (.uInt8, "m_hall_extra_samples"), (.uInt8, "m_batt_filter_const"), (.uInt8, "si_motor_poles"),
    (.double32Auto, "si_gear_ratio"), (.double32Auto, "si_wheel_diameter"),
    (.bool, "si_battery_type"), (.uInt8, "si_battery_cells"), (.double32Auto, "si_battery_ah"),
    (.double32Auto, "si_motor_nl_current"), (.bool, "bms.type"), (.bool, "bms.limit_mode"),
    (.double16, "bms.t_limit_start"), (.double16, "bms.t_limit_end"),
    (.double16, "bms.soc_limit_start"), (.double16, "bms.soc_limit_end"),
    (.bool, "bms.fwd_can_mode")]
  signature_lt := by decide
  nodup := List.Nodup.of_map nameCode (by decide +kernel)

def appconf : ConfigFile where
  signature := APPCONF_SIGNATURE
  params := [
    (.uInt8, "controller_id"), (.uInt32, "timeout_msec"), (.double32Auto, "timeout_brake_current"),
    (.uInt16, "can_status_rate_1"), (.uInt16, "can_status_rate_2"), (.bool, "can_status_msgs_r1"),
    (.bool, "can_status_msgs_r2"), (.bool, "can_baud_rate"), (.bool, "pairing_done"),
    (.bool, "permanent_uart_enabled"), (.bool, "shutdown_mode"), (.bool, "can_mode"),
    (.uInt8, "uavcan_esc_index"), (.bool, "uavcan_raw_mode"),
    (.double32Auto, "uavcan_raw_rpm_max"), (.bool, "uavcan_status_current_mode"),
    (.bool, "servo_out_enable"), (.bool, "kill_sw_mode"), (.bool, "app_to_use"),
    (.bool, "app_ppm_conf.ctrl_type"), (.double32Auto, "app_ppm_conf.pid_max_erpm"),
    (.double32Auto, "app_ppm_conf.hyst"), (.double32Auto, "app_ppm_conf.pulse_start"),
    (.double32Auto, "app_ppm_conf.pulse_end"), (.double32Auto, "app_ppm_conf.pulse_center"),
    (.bool, "app_ppm_conf.median_filter"), (.bool, "app_ppm_conf.safe_start"),
    (.double32Auto, "app_ppm_conf.throttle_exp"),
    (.double32Auto, "app_ppm_conf.throttle_exp_brake"), (.bool, "app_ppm_conf.throttle_exp_mode"),
    (.double32Auto, "app_ppm_conf.ramp_time_pos"), (.double32Auto, "app_ppm_conf.ramp_time_neg"),
    (.bool, "app_ppm_conf.multi_esc"), (.bool, "app_ppm_conf.tc"),
    (.double32Auto, "app_ppm_conf.tc_max_diff"), (.double16, "app_ppm_conf.max_erpm_for_dir"),
    (.double32Auto, "app_ppm_conf.smart_rev_max_duty"),
    (.double32Auto, "app_ppm_conf.smart_rev_ramp_time"), (.bool, "app_adc_conf.ctrl_type"),
    (.double32Auto, "app_adc_conf.hyst"), (.double16, "app_adc_conf.voltage_start"),
    (.double16, "app_adc_conf.voltage_end"), (.double16, "app_adc_conf.voltage_min"),
    (.double16, "app_adc_conf.voltage_max"), (.double16, "app_adc_conf.voltage_center"),
    (.double16, "app_adc_conf.voltage2_start"), (.double16, "app_adc_conf.voltage2_end"),
    (.bool, "app_adc_conf.use_filter"), (.bool, "app_adc_conf.safe_start"),
    (.bool, "app_adc_conf.buttons"), (.bool, "app_adc_conf.voltage_inverted"),
    (.bool, "app_adc_conf.voltage2_inverted"), (.double32Auto, "app_adc_conf.throttle_exp"),
    (.double32Auto, "app_adc_conf.throttle_exp_brake"), (.bool, "app_adc_conf.throttle_exp_mode"),
    (.double32Auto, "app_adc_conf.ramp_time_pos"), (.double32Auto, "app_adc_conf.ramp_time_neg"),
    (.bool, "app_adc_conf.multi_esc"), (.bool, "app_adc_conf.tc"),
    (.double32Auto, "app_adc_conf.tc_max_diff"), (.uInt16, "app_adc_conf.update_rate_hz"),
    (.uInt32, "app_uart_baudrate"), (.bool, "app_chuk_conf.ctrl_type"),
    (.double32Auto, "app_chuk_conf.hyst"), (.double32Auto, "app_chuk_conf.ramp_time_pos"),
    (.double32Auto, "app_chuk_conf.ramp_time_neg"),
    (.double32Auto, "app_chuk_conf.stick_erpm_per_s_in_cc"),
    (.double32Auto, "app_chuk_conf.throttle_exp"),
    (.double32Auto, "app_chuk_conf.throttle_exp_brake"),
    (.bool, "app_chuk_conf.throttle_exp_mode"), (.bool, "app_chuk_conf.multi_esc"),
    (.bool, "app_chuk_conf.tc"), (.double32Auto, "app_chuk_conf.tc_max_diff"),
    (.bool, "app_chuk_conf.use_smart_rev"), (.double32Auto, "app_chuk_conf.smart_rev_max_duty"),
    (.double32Auto, "app_chuk_conf.smart_rev_ramp_time"), (.bool, "app_nrf_conf.speed"),
    (.bool, "app_nrf_conf.power"), (.bool, "app_nrf_conf.crc_type"),
    (.bool, "app_nrf_conf.retry_delay"), (.int8, "app_nrf_conf.retries"),
    (.int8, "app_nrf_conf.channel"), (.uInt8, "app_nrf_conf.address[0]"),
    (.uInt8, "app_nrf_conf.address[1]"), (.uInt8, "app_nrf_conf.address[2]"),
    (.bool, "app_nrf_conf.send_crc_ack"), (.bool, "app_balance_conf.pid_mode"),
    (.double32Auto, "app_balance_conf.kp"), (.double32Auto, "app_balance_conf.ki"),
    (.double32Auto, "app_balance_conf.kd"), (.double32Auto, "app_balance_conf.kp2"),
    (.double32Auto, "app_balance_conf.ki2"), (.double32Auto, "app_balance_conf.kd2"),
    (.uInt16, "app_balance_conf.hertz"), (.uInt16, "app_balance_conf.loop_time_filter"),
    (.double32Auto, "app_balance_conf.fault_pitch"),
    (.double32Auto, "app_balance_conf.fault_roll"), (.double32Auto, "app_balance_conf.fault_duty"),
    (.double32Auto, "app_balance_conf.fault_adc1"), (.double32Auto, "app_balance_conf.fault_adc2"),
    (.uInt16, "app_balance_conf.fault_delay_pitch"),
    (.uInt16, "app_balance_conf.fault_delay_roll"), (.uInt16, "app_balance_conf.fault_delay_duty"),
    (.uInt16, "app_balance_conf.fault_delay_switch_half"),
    (.uInt16, "app_balance_conf.fault_delay_switch_full"),
    (.uInt16, "app_balance_conf.fault_adc_half_erpm"),
    (.bool, "app_balance_conf.fault_is_dual_switch"),
    (.double16, "app_balance_conf.tiltback_duty_angle"),
    (.double16, "app_balance_conf.tiltback_duty_speed"),
    (.double16, "app_balance_conf.tiltback_duty"),
    (.double16, "app_balance_conf.tiltback_hv_angle"),
    (.double16, "app_balance_conf.tiltback_hv_speed"),
    (.double32Auto, "app_balance_conf.tiltback_hv"),
    (.double16, "app_balance_conf.tiltback_lv_angle"),
    (.double16, "app_balance_conf.tiltback_lv_speed"),
    (.double32Auto, "app_balance_conf.tiltback_lv"),
    (.double16, "app_balance_conf.tiltback_return_speed"),
    (.double32Auto, "app_balance_conf.tiltback_constant"),
    (.uInt16, "app_balance_conf.tiltback_constant_erpm"),
    (.double32Auto, "app_balance_conf.tiltback_variable"),
    (.double32Auto, "app_balance_conf.tiltback_variable_max"),
    (.double16, "app_balance_conf.noseangling_speed"),
    (.double32Auto, "app_balance_conf.startup_pitch_tolerance"),
    (.double32Auto, "app_balance_conf.startup_roll_tolerance"),
    (.double32Auto, "app_balance_conf.startup_speed"),
    (.double32Auto, "app_balance_conf.deadzone"), (.bool, "app_balance_conf.multi_esc"),
    (.double32Auto, "app_balance_conf.yaw_kp"), (.double32Auto, "app_balance_conf.yaw_ki"),
    (.double32Auto, "app_balance_conf.yaw_kd"), (.double32Auto, "app_balance_conf.roll_steer_kp"),
    (.double32Auto, "app_balance_conf.roll_steer_erpm_kp"),
    (.double32Auto, "app_balance_conf.brake_current"), (.uInt16, "app_balance_conf.brake_timeout"),
    (.double32Auto, "app_balance_conf.yaw_current_clamp"),
    (.double32Auto, "app_balance_conf.ki_limit"),
    (.uInt16, "app_balance_conf.kd_pt1_lowpass_frequency"),
    (.uInt16, "app_balance_conf.kd_pt1_highpass_frequency"),
    (.double32Auto, "app_balance_conf.booster_angle"),
    (.double32Auto, "app_balance_conf.booster_ramp"),
    (.double32Auto, "app_balance_conf.booster_current"),
    (.double32Auto, "app_balance_conf.torquetilt_start_current"),
    (.double32Auto, "app_balance_conf.torquetilt_angle_limit"),
    (.double32Auto, "app_balance_conf.torquetilt_on_speed"),
    (.double32Auto, "app_balance_conf.torquetilt_off_speed"),
    (.double32Auto, "app_balance_conf.torquetilt_strength"),
    (.double32Auto, "app_balance_conf.torquetilt_filter"),
    (.double32Auto, "app_balance_conf.turntilt_strength"),
    (.double32Auto, "app_balance_conf.turntilt_angle_limit"),
    (.double32Auto, "app_balance_conf.turntilt_start_angle"),
    (.uInt16, "app_balance_conf.turntilt_start_erpm"),
    (.double32Auto, "app_balance_conf.turntilt_speed"),
    (.uInt16, "app_balance_conf.turntilt_erpm_boost"),
    (.uInt16, "app_balance_conf.turntilt_erpm_boost_end"), (.bool, "app_pas_conf.ctrl_type"),
    (.bool, "app_pas_conf.sensor_type"), (.double16, "app_pas_conf.current_scaling"),
    (.double16, "app_pas_conf.pedal_rpm_start"), (.double16, "app_pas_conf.pedal_rpm_end"),
    (.bool, "app_pas_conf.invert_pedal_direction"), (.uInt16, "app_pas_conf.magnets"),
    (.bool, "app_pas_conf.use_filter"), (.double16, "app_pas_conf.ramp_time_pos"),
    (.double16, "app_pas_conf.ramp_time_neg"), (.uInt16, "app_pas_conf.update_rate_hz"),
    (.bool, "imu_conf.type"), (.bool, "imu_conf.mode"), (.bool, "imu_conf.filter"),
    (.double16, "imu_conf.accel_lowpass_filter_x"), (.double16, "imu_conf.accel_lowpass_filter_y"),
    (.double16, "imu_conf.accel_lowpass_filter_z"), (.double16, "imu_conf.gyro_lowpass_filter"),
    (.uInt16, "imu_conf.sample_rate_hz"), (.bool, "imu_conf.use_magnetometer"),
    (.double32Auto, "imu_conf.accel_confidence_decay"), (.double32Auto, "imu_conf.mahony_kp"),
    (.double32Auto, "imu_conf.mahony_ki"), (.double32Auto, "imu_conf.madgwick_beta"),
    (.double32Auto, "imu_conf.rot_roll"), (.double32Auto, "imu_conf.rot_pitch"),
    (.double32Auto, "imu_conf.rot_yaw"), (.double32Auto, "imu_conf.accel_offsets[0]"),
    (.double32Auto, "imu_conf.accel_offsets[1]"), (.double32Auto, "imu_conf.accel_offsets[2]"),
    (.double32Auto, "imu_conf.gyro_offsets[0]"), (.double32Auto, "imu_conf.gyro_offsets[1]"),
    (.double32Auto, "imu_conf.gyro_offsets[2]")]
  signature_lt := by decide
  nodup := List.Nodup.of_map nameCode (by decide +kernel)

def confgeneratorDeserialiseMcconf : Bytes → Py (Option (List NamedParam) × Bytes) :=
  mcconf.deserialise

def confgeneratorDeserialiseAppconf : Bytes → Py (Option (List NamedParam) × Bytes) :=
  appconf.deserialise

def confgeneratorSerialiseMcconf : List NamedParam → Py Bytes := mcconf.serialise

def confgeneratorSerialiseAppconf : List NamedParam → Py Bytes := appconf.serialise

end PyVesc
