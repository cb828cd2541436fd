import DrbdUtils.Genl.GenlMagic

/-!
# The schema of version 8.4

The structs of `v84/linux/drbd_genl.h`, with the constants of `v84/linux/drbd.h`.
-/

set_option autoImplicit false

namespace DrbdUtils.Genl

def SHARED_SECRET_MAX : Nat := 64

def UI_SIZE : Nat := 4

def HISTORY_UUIDS : Nat := 32

/-- `DRBD_NLA_CFG_REPLY` -/
def drbdCfgReply : GenlStruct where
  tagNumber := 1
  sName := "drbd_cfg_reply"
  fields := [
    strField 1 DRBD_GENLA_F_MANDATORY "info_text" 0]

/-- `DRBD_NLA_CFG_CONTEXT` -/
def drbdCfgContext : GenlStruct where
  tagNumber := 2
  sName := "drbd_cfg_context"
  fields := [
    u32Field 1 DRBD_GENLA_F_MANDATORY "ctx_volume",
    strField 2 DRBD_GENLA_F_MANDATORY "ctx_resource_name" 128,
    binField 3 DRBD_GENLA_F_MANDATORY "ctx_my_addr" 128,
    binField 4 DRBD_GENLA_F_MANDATORY "ctx_peer_addr" 128]

/-- `DRBD_NLA_DISK_CONF` -/
def diskConf : GenlStruct where
  tagNumber := 3
  sName := "disk_conf"
  fields := [
    strField 1 (DRBD_F_REQUIRED ||| DRBD_F_INVARIANT) "backing_dev" 128,
    strField 2 (DRBD_F_REQUIRED ||| DRBD_F_INVARIANT) "meta_dev" 128,
    s32Field 3 (DRBD_F_REQUIRED ||| DRBD_F_INVARIANT) "meta_dev_idx",
    u64Field 4 (DRBD_GENLA_F_MANDATORY ||| DRBD_F_INVARIANT) "disk_size",
    u32Field 5 (DRBD_GENLA_F_MANDATORY ||| DRBD_F_INVARIANT) "max_bio_bvecs",
    u32Field 6 DRBD_GENLA_F_MANDATORY "on_io_error",
    u32Field 7 DRBD_GENLA_F_MANDATORY "fencing",
    u32Field 8 DRBD_GENLA_F_MANDATORY "resync_rate",
    s32Field 9 DRBD_GENLA_F_MANDATORY "resync_after",
    u32Field 10 DRBD_GENLA_F_MANDATORY "al_extents",
    u32Field 11 DRBD_GENLA_F_MANDATORY "c_plan_ahead",
    u32Field 12 DRBD_GENLA_F_MANDATORY "c_delay_target",
    u32Field 13 DRBD_GENLA_F_MANDATORY "c_fill_target",
    u32Field 14 DRBD_GENLA_F_MANDATORY "c_max_rate",
    u32Field 15 DRBD_GENLA_F_MANDATORY "c_min_rate",
    u32Field 20 DRBD_GENLA_F_MANDATORY "disk_timeout",
    u32Field 21 0 "read_balancing",
    u32Field 25 0 "rs_discard_granularity",
    flgField 16 DRBD_GENLA_F_MANDATORY "disk_barrier",
    flgField 17 DRBD_GENLA_F_MANDATORY "disk_flushes",
    flgField 18 DRBD_GENLA_F_MANDATORY "disk_drain",
    flgField 19 DRBD_GENLA_F_MANDATORY "md_flushes",
    flgField 23 0 "al_updates",
    flgField 24 0 "discard_zeroes_if_aligned",
    flgField 26 0 "disable_write_same"]

/-- `DRBD_NLA_RESOURCE_OPTS` -/
def resOpts : GenlStruct where
  tagNumber := 4
  sName := "res_opts"
  fields := [
    strField 1 DRBD_GENLA_F_MANDATORY "cpu_mask" 32,
    u32Field 2 DRBD_GENLA_F_MANDATORY "on_no_data"]

/-- `DRBD_NLA_NET_CONF` -/
def netConf : GenlStruct where
  tagNumber := 5
  sName := "net_conf"
  fields := [
    strField 1 (DRBD_GENLA_F_MANDATORY ||| DRBD_F_SENSITIVE) "shared_secret" SHARED_SECRET_MAX,
    strField 2 DRBD_GENLA_F_MANDATORY "cram_hmac_alg" SHARED_SECRET_MAX,
    strField 3 DRBD_GENLA_F_MANDATORY "integrity_alg" SHARED_SECRET_MAX,
    strField 4 DRBD_GENLA_F_MANDATORY "verify_alg" SHARED_SECRET_MAX,
    strField 5 DRBD_GENLA_F_MANDATORY "csums_alg" SHARED_SECRET_MAX,
    u32Field 6 DRBD_GENLA_F_MANDATORY "wire_protocol",
    u32Field 7 DRBD_GENLA_F_MANDATORY "connect_int",
    u32Field 8 DRBD_GENLA_F_MANDATORY "timeout",
    u32Field 9 DRBD_GENLA_F_MANDATORY "ping_int",
    u32Field 10 DRBD_GENLA_F_MANDATORY "ping_timeo",
    u32Field 11 DRBD_GENLA_F_MANDATORY "sndbuf_size",
    u32Field 12 DRBD_GENLA_F_MANDATORY "rcvbuf_size",
    u32Field 13 DRBD_GENLA_F_MANDATORY "ko_count",
    u32Field 14 DRBD_GENLA_F_MANDATORY "max_buffers",
    u32Field 15 DRBD_GENLA_F_MANDATORY "max_epoch_size",
    u32Field 16 DRBD_GENLA_F_MANDATORY "unplug_watermark",
    u32Field 17 DRBD_GENLA_F_MANDATORY "after_sb_0p",
    u32Field 18 DRBD_GENLA_F_MANDATORY "after_sb_1p",
    u32Field 19 DRBD_GENLA_F_MANDATORY "after_sb_2p",
    u32Field 20 DRBD_GENLA_F_MANDATORY "rr_conflict",
    u32Field 21 DRBD_GENLA_F_MANDATORY "on_congestion",
    u32Field 22 DRBD_GENLA_F_MANDATORY "cong_fill",
    u32Field 23 DRBD_GENLA_F_MANDATORY "cong_extents",
    flgField 24 DRBD_GENLA_F_MANDATORY "two_primaries",
    flgField 25 (DRBD_GENLA_F_MANDATORY ||| DRBD_F_INVARIANT) "discard_my_data",
    flgField 26 DRBD_GENLA_F_MANDATORY "tcp_cork",
    flgField 27 DRBD_GENLA_F_MANDATORY "always_asbp",
    flgField 28 (DRBD_GENLA_F_MANDATORY ||| DRBD_F_INVARIANT) "tentative",
    flgField 29 DRBD_GENLA_F_MANDATORY "use_rle",
    flgField 33 0 "csums_after_crash_only",
    u32Field 34 0 "sock_check_timeo",
    binField 35 0 "my_addr2" 128,
    binField 36 0 "peer_addr2" 128]

/-- `DRBD_NLA_SET_ROLE_PARMS` -/
def setRoleParms : GenlStruct where
  tagNumber := 6
  sName := "set_role_parms"
  fields := [
    flgField 1 DRBD_GENLA_F_MANDATORY "assume_uptodate"]

/-- `DRBD_NLA_RESIZE_PARMS` -/
def resizeParms : GenlStruct where
  tagNumber := 7
  sName := "resize_parms"
  fields := [
    u64Field 1 DRBD_GENLA_F_MANDATORY "resize_size",
    flgField 2 DRBD_GENLA_F_MANDATORY "resize_force",
    flgField 3 DRBD_GENLA_F_MANDATORY "no_resync",
    u32Field 4 0 "al_stripes",
    u32Field 5 0 "al_stripe_size"]

/-- `DRBD_NLA_STATE_INFO` -/
def stateInfo : GenlStruct where
  tagNumber := 8
  sName := "state_info"
  fields := [
    u32Field 1 DRBD_GENLA_F_MANDATORY "sib_reason",
    u32Field 2 DRBD_F_REQUIRED "current_state",
    u64Field 3 DRBD_GENLA_F_MANDATORY "capacity",
    u64Field 4 DRBD_GENLA_F_MANDATORY "ed_uuid",
    u32Field 5 DRBD_GENLA_F_MANDATORY "prev_state",
    u32Field 6 DRBD_GENLA_F_MANDATORY "new_state",
    binField 7 DRBD_GENLA_F_MANDATORY "uuids" (UI_SIZE * 8),
    u32Field 8 DRBD_GENLA_F_MANDATORY "disk_flags",
    u64Field 9 DRBD_GENLA_F_MANDATORY "bits_total",
    u64Field 10 DRBD_GENLA_F_MANDATORY "bits_oos",
    u64Field 11 DRBD_GENLA_F_MANDATORY "bits_rs_total",
    u64Field 12 DRBD_GENLA_F_MANDATORY "bits_rs_failed",
    strField 13 DRBD_GENLA_F_MANDATORY "helper" 32,
    u32Field 14 DRBD_GENLA_F_MANDATORY "helper_exit_code",
    u64Field 15 0 "send_cnt",
    u64Field 16 0 "recv_cnt",
    u64Field 17 0 "read_cnt",
    u64Field 18 0 "writ_cnt",
    u64Field 19 0 "al_writ_cnt",
    u64Field 20 0 "bm_writ_cnt",
    u32Field 21 0 "ap_bio_cnt",
    u32Field 22 0 "ap_pending_cnt",
    u32Field 23 0 "rs_pending_cnt"]

/-- `DRBD_NLA_START_OV_PARMS` -/
def startOvParms : GenlStruct where
  tagNumber := 9
  sName := "start_ov_parms"
  fields := [
    u64Field 1 DRBD_GENLA_F_MANDATORY "ov_start_sector",
    u64Field 2 DRBD_GENLA_F_MANDATORY "ov_stop_sector"]

/-- `DRBD_NLA_NEW_C_UUID_PARMS` -/
def newCUuidParms : GenlStruct where
  tagNumber := 10
  sName := "new_c_uuid_parms"
  fields := [
    flgField 1 DRBD_GENLA_F_MANDATORY "clear_bm"]

/-- `DRBD_NLA_TIMEOUT_PARMS` -/
def timeoutParms : GenlStruct where
  tagNumber := 11
  sName := "timeout_parms"
  fields := [
    u32Field 1 DRBD_F_REQUIRED "timeout_type"]

/-- `DRBD_NLA_DISCONNECT_PARMS` -/
def disconnectParms : GenlStruct where
  tagNumber := 12
  sName := "disconnect_parms"
  fields := [
    flgField 1 DRBD_GENLA_F_MANDATORY "force_disconnect"]

/-- `DRBD_NLA_DETACH_PARMS` -/
def detachParms : GenlStruct where
  tagNumber := 13
  sName := "detach_parms"
  fields := [
    flgField 1 DRBD_GENLA_F_MANDATORY "force_detach"]

/-- `DRBD_NLA_RESOURCE_INFO` -/
def resourceInfo : GenlStruct where
  tagNumber := 15
  sName := "resource_info"
  fields := [
    u32Field 1 0 "res_role",
    flgField 2 0 "res_susp",
    flgField 3 0 "res_susp_nod",
    flgField 4 0 "res_susp_fen"]

/-- `DRBD_NLA_DEVICE_INFO` -/
def deviceInfo : GenlStruct where
  tagNumber := 16
  sName := "device_info"
  fields := [
    u32Field 1 0 "dev_disk_state"]

/-- `DRBD_NLA_CONNECTION_INFO` -/
def connectionInfo : GenlStruct where
  tagNumber := 17
  sName := "connection_info"
  fields := [
    u32Field 1 0 "conn_connection_state",
    u32Field 2 0 "conn_role"]

/-- `DRBD_NLA_PEER_DEVICE_INFO` -/
def peerDeviceInfo : GenlStruct where
  tagNumber := 18
  sName := "peer_device_info"
  fields := [
    u32Field 1 0 "peer_repl_state",
    u32Field 2 0 "peer_disk_state",
    u32Field 3 0 "peer_resync_susp_user",
    u32Field 4 0 "peer_resync_susp_peer",
    u32Field 5 0 "peer_resync_susp_dependency"]

/-- `DRBD_NLA_RESOURCE_STATISTICS` -/
def resourceStatistics : GenlStruct where
  tagNumber := 19
  sName := "resource_statistics"
  fields := [
    u32Field 1 0 "res_stat_write_ordering"]

/-- `DRBD_NLA_DEVICE_STATISTICS` -/
def deviceStatistics : GenlStruct where
  tagNumber := 20
  sName := "device_statistics"
  fields := [
    u64Field 1 0 "dev_size",
    u64Field 2 0 "dev_read",
    u64Field 3 0 "dev_write",
    u64Field 4 0 "dev_al_writes",
    u64Field 5 0 "dev_bm_writes",
    u32Field 6 0 "dev_upper_pending",
    u32Field 7 0 "dev_lower_pending",
    flgField 8 0 "dev_upper_blocked",
    flgField 9 0 "dev_lower_blocked",
    flgField 10 0 "dev_al_suspended",
    u64Field 11 0 "dev_exposed_data_uuid",
    u64Field 12 0 "dev_current_uuid",
    u32Field 13 0 "dev_disk_flags",
    binField 14 0 "history_uuids" (HISTORY_UUIDS * 8)]

/-- `DRBD_NLA_CONNECTION_STATISTICS` -/
def connectionStatistics : GenlStruct where
  tagNumber := 21
  sName := "connection_statistics"
  fields := [
    flgField 1 0 "conn_congested"]

/-- `DRBD_NLA_PEER_DEVICE_STATISTICS` -/
def peerDeviceStatistics : GenlStruct where
  tagNumber := 22
  sName := "peer_device_statistics"
  fields := [
    u64Field 1 0 "peer_dev_received",
    u64Field 2 0 "peer_dev_sent",
    u32Field 3 0 "peer_dev_pending",
    u32Field 4 0 "peer_dev_unacked",
    u64Field 5 0 "peer_dev_out_of_sync",
    u64Field 6 0 "peer_dev_resync_failed",
    u64Field 7 0 "peer_dev_bitmap_uuid",
    u32Field 9 0 "peer_dev_flags"]

/-- `DRBD_NLA_NOTIFICATION_HEADER` -/
def drbdNotificationHeader : GenlStruct where
  tagNumber := 23
  sName := "drbd_notification_header"
  fields := [
    u32Field 1 DRBD_GENLA_F_MANDATORY "nh_type"]

/-- `DRBD_NLA_HELPER` -/
def drbdHelperInfo : GenlStruct where
  tagNumber := 24
  sName := "drbd_helper_info"
  fields := [
    strField 1 DRBD_GENLA_F_MANDATORY "helper_name" 32,
    u32Field 2 DRBD_GENLA_F_MANDATORY "helper_status"]

def drbdGenlStructs : List GenlStruct :=
  [drbdCfgReply, drbdCfgContext, diskConf, resOpts, netConf, setRoleParms, resizeParms, stateInfo,
    startOvParms, newCUuidParms, timeoutParms, disconnectParms, detachParms, resourceInfo, deviceInfo,
    connectionInfo, peerDeviceInfo, resourceStatistics, deviceStatistics, connectionStatistics,
    peerDeviceStatistics, drbdNotificationHeader, drbdHelperInfo]

theorem drbdGenlStructs_wf : ∀ sd ∈ drbdGenlStructs, sd.Wf := by decide

theorem drbdGenlStructs_nodup : (drbdGenlStructs.map GenlStruct.tagNumber).Nodup := by decide

theorem drbdGenlStructs_tagNumber : ∀ sd ∈ drbdGenlStructs, 0 < sd.tagNumber ∧ sd.tagNumber < 2 ^ 14 := by
  decide

def drbdGenl : GenlSchema :=
  ⟨drbdGenlStructs, drbdGenlStructs_wf, drbdGenlStructs_nodup, drbdGenlStructs_tagNumber⟩

end DrbdUtils.Genl
