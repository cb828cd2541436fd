import Mathlib.Data.List.Basic
import DrbdUtils.Lib.Strtoul

/-!
# The plugins of a proxy connection

`proxy_reconf()` of `drbdadm_adjust.c` with `_is_plugin_in_list()`: the configured and the running
plugins are walked in lockstep, and what differs is set one position at a time, unless a plugin was
moved.

* `reconfLoop_spec` — where the walk stops, and what the commands lead to if it does not.
* `proxyReconf_reaches_iff` — when they lead to the configured plugins.
-/

set_option autoImplicit false

namespace DrbdUtils.Adm

open Numerals

/-! ## The walk -/

/-- A plugin with its parameters, as in the configuration. -/
abbrev Plugin := List Char

def MAX_PLUGINS : Nat := 10

def MAX_PLUGIN_NAME : Nat := 16

/-- "set plugin C i X" and "set plugin C i end". -/
inductive PluginCmd where
  | set (i : Nat) (plugin : Plugin)
  | setEnd (i : Nat)
  deriving DecidableEq

/-- What the proxy makes of a command. -/
def PluginCmd.apply (plugins : List Plugin) : PluginCmd → List Plugin
  | .set i plugin => if i < plugins.length then plugins.set i plugin else plugins ++ [plugin]
  | .setEnd i => plugins.take i

/-- What keeps the commands from being scheduled one by one. -/
inductive Stopped where
  /-- `exit(E_CONFIG_INVALID)`. -/
  | configInvalid
  | redoWholeConn
  /-- A store behind the end of an array. -/
  | outOfBounds
  deriving DecidableEq

/-- Store the next entry of an array of `MAX_PLUGINS` entries. -/
def storeEntry {α : Type} (table : List α) (x : α) : Except Stopped (List α) :=
  if table.length < MAX_PLUGINS then .ok (table ++ [x]) else .error .outOfBounds

/-- The text in front of the parameters. -/
def pluginName (plugin : Plugin) : List Char := plugin.takeWhile (!isSpace ·)

/-- `_is_plugin_in_list`: whether the name is in `slist`, and `alist` with the name. -/
def isPluginInList (string : Plugin) (slist alist : List (List Char)) (listLen : Nat) :
    Except Stopped (Bool × List (List Char)) :=
  if (pluginName string).length + 1 ≥ MAX_PLUGIN_NAME then .error .configInvalid
  else do
    let alist ← storeEntry alist (pluginName string)
    if (slist.take listLen).contains (pluginName string) then pure (true, alist)
    else if listLen ≥ MAX_PLUGINS then .error .configInvalid
    else pure (false, alist)

/-- The arrays of `proxy_reconf`. -/
structure ReconfState where
  pRes : List (List Char) := []
  pRun : List (List Char) := []
  pluginChanges : List PluginCmd := []

/-- `sizeof(plugin_changes)`, in bytes. -/
def sizeofPluginChanges : Nat := MAX_PLUGINS * 8

/-- The loop of `proxy_reconf` with the position `i`, and `n` rounds to go. -/
def reconfLoop : Nat → Nat → ReconfState → List Plugin → List Plugin → Except Stopped (List PluginCmd)
  | 0, _, st, _, _ => .ok st.pluginChanges
  | n + 1, i, st, res, run =>
    if st.pluginChanges.length ≥ sizeofPluginChanges - 1 then .error .configInvalid
    else match res, run with
      | [], [] => .ok st.pluginChanges
      | [], _ :: _ => storeEntry st.pluginChanges (.setEnd i)
      | resO :: res, [] => do
        let pRun ← storeEntry st.pRun []
        let (redo, pRes) ← isPluginInList resO pRun st.pRes i
        if redo then .error .redoWholeConn
        else do
          let changes ← storeEntry st.pluginChanges (.set i resO)
          reconfLoop n (i + 1) ⟨pRes, pRun, changes⟩ res []
      | resO :: res, runO :: run => do
        let (redo, pRes) ← isPluginInList resO st.pRun st.pRes i
        if redo then .error .redoWholeConn
        else do
          let (redo, pRun) ← isPluginInList runO pRes st.pRun i
          if redo then .error .redoWholeConn
          else do
            let changes ←
              if runO ≠ resO then storeEntry st.pluginChanges (.set i resO) else .ok st.pluginChanges
            reconfLoop n (i + 1) ⟨pRes, pRun, changes⟩ res run

/-- `struct d_proxy_info`, with the value of the option "memlimit". -/
structure ProxyInfo where
  memlimit : Option Nat := none
  plugins : List Plugin

/-- What `proxy_reconf` schedules. -/
inductive Reconf where
  | configInvalid
  | outOfBounds
  /-- `proxy_conn_down_cmd` if `down` is set, `proxy_conn_up_cmd` and `proxy_conn_plugins_cmd`. -/
  | wholeConn (down : Bool)
  | setPlugins (changes : List PluginCmd)

/-- `proxy_reconf`; `deviates` compares two values with the tolerance of 2%. -/
def proxyReconf (deviates : Nat → Nat → Bool) (configured : ProxyInfo) (runningProxy : Option ProxyInfo)
    (proxyConnIsUp : Bool) : Reconf :=
  match runningProxy with
  | none => .wholeConn true
  | some running =>
    if !proxyConnIsUp then .wholeConn false
    else if configured.memlimit.any fun v1 => running.memlimit.all fun v2 => deviates v1 v2 then
      .wholeConn true
    else match reconfLoop MAX_PLUGINS 0 {} configured.plugins running.plugins with
      | .error .configInvalid => .configInvalid
      | .error .redoWholeConn => .wholeConn true
      | .error .outOfBounds => .outOfBounds
      | .ok changes => .setPlugins changes

/-! ## Where it leads -/

/-- The configuration is rejected, the connection is made anew, or the commands lead from the running
    plugins to the configured ones. -/
def Reaches (configured running : List Plugin) : Reconf → Prop
  | .configInvalid => True
  | .wholeConn _ => True
  | .setPlugins changes => changes.foldl PluginCmd.apply running = configured
  | .outOfBounds => False

instance (configured running : List Plugin) (r : Reconf) : Decidable (Reaches configured running r) := by
  cases r <;> unfold Reaches <;> infer_instance

/-- The name of the running plugin at a position; there may be none. -/
def runName (run : List Plugin) (i : Nat) : List Char := (run[i]?.map pluginName).getD []

/-- A position where a name is too long, or a plugin of one side was at an earlier position of the
    other. -/
def StopsAt (conf run : List Plugin) (i : Nat) : Prop :=
  ∃ plugin, conf[i]? = some plugin ∧
    ((pluginName plugin).length + 1 ≥ MAX_PLUGIN_NAME ∨
      pluginName plugin ∈ (List.range i).map (runName run) ∨
      ∃ runO, run[i]? = some runO ∧ ((pluginName runO).length + 1 ≥ MAX_PLUGIN_NAME ∨
        pluginName runO ∈ (conf.take i).map pluginName))

section Walk

variable {conf run : List Plugin} {i : Nat}

theorem storeEntry_of_lt {α : Type} {table : List α} (h : table.length < MAX_PLUGINS) (x : α) :
    storeEntry table x = .ok (table ++ [x]) := if_pos h

theorem isPluginInList_eq (string : Plugin) (slist : List (List Char)) {alist : List (List Char)}
    (hlen : alist.length = i) (hi : i < MAX_PLUGINS) :
    isPluginInList string slist alist i =
      if (pluginName string).length + 1 ≥ MAX_PLUGIN_NAME then .error .configInvalid
      else .ok (decide (pluginName string ∈ slist.take i), alist ++ [pluginName string]) := by
  unfold isPluginInList
  split
  · rfl
  · rw [storeEntry_of_lt (by omega)]
    by_cases hmem : pluginName string ∈ slist.take i
    · have hc : (slist.take i).contains (pluginName string) = true := List.contains_iff_mem.2 hmem
      simp only [bind, Except.bind, hc, if_true, decide_eq_true hmem]
      rfl
    · have hc : (slist.take i).contains (pluginName string) = false := by
        rw [← Bool.not_eq_true, List.contains_iff_mem]
        exact hmem
      simp only [bind, Except.bind, hc, Bool.false_eq_true, if_false, decide_eq_false hmem]
      rw [if_neg (by omega)]
      rfl

theorem drop_cons {α : Type} {l rest : List α} {x : α} (h : l.drop i = x :: rest) :
    i < l.length ∧ l[i]? = some x ∧ l.drop (i + 1) = rest ∧ l.take (i + 1) = l.take i ++ [x] := by
  have hi : i < l.length := by
    by_contra hle
    rw [List.drop_eq_nil_of_le (Nat.not_lt.1 hle)] at h
    cases h
  rw [List.drop_eq_getElem_cons hi] at h
  obtain ⟨rfl, rfl⟩ := List.cons.inj h
  exact ⟨hi, List.getElem?_eq_getElem hi, rfl, (List.take_append_getElem hi).symm⟩

/-- What holds at the beginning of a round. -/
structure WalkInv (conf run : List Plugin) (i : Nat) (st : ReconfState) : Prop where
  le : i ≤ conf.length
  pRes : st.pRes = (conf.take i).map pluginName
  pRun : st.pRun = (List.range i).map (runName run)
  count : st.pluginChanges.length ≤ i
  reached : st.pluginChanges.foldl PluginCmd.apply run = conf.take i ++ run.drop i

theorem WalkInv.lengths {st : ReconfState} (h : WalkInv conf run i st) :
    st.pRes.length = i ∧ st.pRun.length = i := by
  rw [h.pRes, h.pRun, List.length_map, List.length_map, List.length_take, List.length_range]
  exact ⟨Nat.min_eq_left h.le, rfl⟩

/-- The next round, when the plugin is new. -/
theorem WalkInv.new {st : ReconfState} (h : WalkInv conf run i st) {resO : Plugin} {res : List Plugin}
    (hres : conf.drop i = resO :: res) (hrun : run.drop i = []) :
    WalkInv conf run (i + 1) ⟨st.pRes ++ [pluginName resO], st.pRun ++ [[]],
      st.pluginChanges ++ [.set i resO]⟩ := by
  obtain ⟨hi, -, -, htake⟩ := drop_cons hres
  have hlen : run.length ≤ i := List.drop_eq_nil_iff.1 hrun
  have hname : runName run i = [] := by
    unfold runName
    rw [List.getElem?_eq_none hlen]
    rfl
  refine ⟨hi, ?_, ?_, ?_, ?_⟩
  · rw [htake, List.map_append, h.pRes]
    rfl
  · rw [List.range_succ, List.map_append, h.pRun, List.map_singleton, hname]
  · rw [List.length_append]
    exact Nat.succ_le_succ h.count
  · rw [List.foldl_append, h.reached, hrun, List.append_nil, htake,
      List.drop_eq_nil_of_le (Nat.le_succ_of_le hlen), List.append_nil]
    have hnot : ¬i < (conf.take i).length := by
      rw [List.length_take]
      omega
    exact if_neg hnot

/-- The next round, when there is a running plugin at the position. -/
theorem WalkInv.set {st : ReconfState} (h : WalkInv conf run i st) {resO runO : Plugin}
    {res runs : List Plugin} (hres : conf.drop i = resO :: res) (hrun : run.drop i = runO :: runs) :
    WalkInv conf run (i + 1) ⟨st.pRes ++ [pluginName resO], st.pRun ++ [pluginName runO],
      if runO ≠ resO then st.pluginChanges ++ [.set i resO] else st.pluginChanges⟩ := by
  obtain ⟨hi, -, -, htake⟩ := drop_cons hres
  obtain ⟨-, hget, hdrop, -⟩ := drop_cons hrun
  have hname : runName run i = pluginName runO := by
    unfold runName
    rw [hget]
    rfl
  have hlen : (conf.take i).length = i := by
    rw [List.length_take]
    exact Nat.min_eq_left h.le
  refine ⟨hi, ?_, ?_, ?_, ?_⟩
  · rw [htake, List.map_append, h.pRes]
    rfl
  · rw [List.range_succ, List.map_append, h.pRun, List.map_singleton, hname]
  · have hcount := h.count
    dsimp only
    split
    · rw [List.length_append]
      exact Nat.succ_le_succ hcount
    · exact Nat.le_succ_of_le hcount
  · rw [htake, hdrop, List.append_assoc, List.singleton_append]
    dsimp only
    split
    · have happly : PluginCmd.apply (conf.take i ++ runO :: runs) (.set i resO) =
          (conf.take i ++ runO :: runs).set i resO := if_pos (by simp [hlen])
      rw [List.foldl_append, h.reached, hrun]
      refine happly.trans ?_
      rw [List.set_append_right _ _ (by omega), hlen, Nat.sub_self]
      rfl
    · rename_i heq
      rw [h.reached, hrun, not_not.1 heq]

/-- Whether the walk stops at a position without running plugin. -/
theorem stopsAt_new {resO : Plugin} {res : List Plugin} (hres : conf.drop i = resO :: res)
    (hrun : run.drop i = []) : StopsAt conf run i ↔
      (pluginName resO).length + 1 ≥ MAX_PLUGIN_NAME ∨
        pluginName resO ∈ (List.range i).map (runName run) := by
  have hget : run[i]? = none := List.getElem?_eq_none (List.drop_eq_nil_iff.1 hrun)
  unfold StopsAt
  rw [(drop_cons hres).2.1, hget]
  simp

theorem stopsAt_set {resO runO : Plugin} {res runs : List Plugin} (hres : conf.drop i = resO :: res)
    (hrun : run.drop i = runO :: runs) : StopsAt conf run i ↔
      (pluginName resO).length + 1 ≥ MAX_PLUGIN_NAME ∨
        pluginName resO ∈ (List.range i).map (runName run) ∨
        (pluginName runO).length + 1 ≥ MAX_PLUGIN_NAME ∨
        pluginName runO ∈ (conf.take i).map pluginName := by
  unfold StopsAt
  rw [(drop_cons hres).2.1, (drop_cons hrun).2.1]
  simp

/-- Where the commands lead to when the walk is not stopped. -/
def walked (conf run : List Plugin) : List Plugin :=
  conf.take MAX_PLUGINS ++ if conf.length < MAX_PLUGINS then [] else run.drop MAX_PLUGINS

/-- The walk ends, at a position where it stops or with the commands. -/
inductive Walk (conf run : List Plugin) (i : Nat) : Except Stopped (List PluginCmd) → Prop
  | stopped {e : Stopped} {j : Nat} (hij : i ≤ j) (hj : j < MAX_PLUGINS) (hstop : StopsAt conf run j)
      (he : e ≠ .outOfBounds) : Walk conf run i (.error e)
  | through {changes : List PluginCmd} (hno : ∀ j, i ≤ j → j < MAX_PLUGINS → ¬StopsAt conf run j)
      (hreached : changes.foldl PluginCmd.apply run = walked conf run) : Walk conf run i (.ok changes)

theorem Walk.step {r : Except Stopped (List PluginCmd)} (h : Walk conf run (i + 1) r)
    (hi : ¬StopsAt conf run i) : Walk conf run i r := by
  cases h with
  | stopped hij hj hstop he => exact .stopped (Nat.le_of_succ_le hij) hj hstop he
  | through hno hreached =>
    refine .through (fun j hij hj => ?_) hreached
    rcases Nat.eq_or_lt_of_le hij with rfl | hlt
    · exact hi
    · exact hno j hlt hj

theorem not_stopsAt_of_le {j : Nat} (h : conf.length ≤ j) : ¬StopsAt conf run j := by
  rintro ⟨plugin, hget, -⟩
  rw [List.getElem?_eq_none h] at hget
  cases hget

theorem walked_of_length {j : Nat} (hi : conf.length ≤ j) (hj : j < MAX_PLUGINS) : walked conf run = conf := by
  unfold walked
  rw [if_pos (by omega), List.append_nil, List.take_of_length_le (by omega)]

theorem reconfLoop_spec {n : Nat} {st : ReconfState} (hn : n + i = MAX_PLUGINS)
    (h : WalkInv conf run i st) :
    Walk conf run i (reconfLoop n i st (conf.drop i) (run.drop i)) := by
  induction n generalizing i st with
  | zero =>
    have hi : i = MAX_PLUGINS := by omega
    subst hi
    refine .through (fun j hij hj => absurd hj (by omega)) ?_
    rw [h.reached, walked, if_neg (Nat.not_lt.2 h.le)]
  | succ n ih =>
    have hi : i < MAX_PLUGINS := by omega
    have hcount := h.count
    have hroom : st.pluginChanges.length < MAX_PLUGINS := by omega
    obtain ⟨hres, hrun⟩ := h.lengths
    have hsize : ¬st.pluginChanges.length ≥ sizeofPluginChanges - 1 := by
      unfold sizeofPluginChanges
      omega
    unfold reconfLoop
    rw [if_neg hsize]
    cases hc : conf.drop i with
    | nil =>
      have hle : conf.length ≤ i := List.drop_eq_nil_iff.1 hc
      have hreached := h.reached
      rw [List.take_of_length_le hle] at hreached
      cases hr : run.drop i with
      | nil =>
        refine .through (fun j hij _ => not_stopsAt_of_le (hle.trans hij)) ?_
        rw [walked_of_length hle hi, hreached, hr, List.append_nil]
      | cons runO runs =>
        dsimp only
        rw [storeEntry_of_lt hroom]
        refine .through (fun j hij _ => not_stopsAt_of_le (hle.trans hij)) ?_
        rw [walked_of_length hle hi, List.foldl_append, hreached]
        exact List.take_left' (Nat.le_antisymm hle h.le)
    | cons resO res =>
      have hdrop := (drop_cons hc).2.2.1
      cases hr : run.drop i with
      | nil =>
        have hstop := stopsAt_new hc hr
        have hnil : run.drop (i + 1) = [] :=
          List.drop_eq_nil_of_le (Nat.le_succ_of_le (List.drop_eq_nil_iff.1 hr))
        have hslist : (st.pRun ++ [[]]).take i = (List.range i).map (runName run) := by
          rw [List.take_left' hrun, h.pRun]
        dsimp only
        rw [storeEntry_of_lt (by omega)]
        simp only [bind, Except.bind]
        rw [isPluginInList_eq resO _ hres hi, hslist]
        by_cases hlong : (pluginName resO).length + 1 ≥ MAX_PLUGIN_NAME
        · rw [if_pos hlong]
          exact .stopped (Nat.le_refl i) hi (hstop.2 (Or.inl hlong)) (by decide)
        · rw [if_neg hlong]
          by_cases hmem : pluginName resO ∈ (List.range i).map (runName run)
          · rw [decide_eq_true hmem]
            exact .stopped (Nat.le_refl i) hi (hstop.2 (Or.inr hmem)) (by decide)
          · rw [decide_eq_false hmem]
            dsimp only
            rw [if_neg (by decide), storeEntry_of_lt hroom]
            have hnext := ih (by omega) (h.new hc hr)
            rw [hdrop, hnil] at hnext
            exact hnext.step fun hs => (hstop.1 hs).elim hlong hmem
      | cons runO runs =>
        have hstop := stopsAt_set hc hr
        have hdropr := (drop_cons hr).2.2.1
        have hnext := ih (by omega) (h.set hc hr)
        rw [hdrop, hdropr] at hnext
        have hpRun : st.pRun.take i = (List.range i).map (runName run) := by
          rw [List.take_of_length_le (by omega), h.pRun]
        have hpRes : (st.pRes ++ [pluginName resO]).take i = (conf.take i).map pluginName := by
          rw [List.take_left' hres, h.pRes]
        dsimp only
        rw [isPluginInList_eq resO _ hres hi, hpRun]
        by_cases hlong : (pluginName resO).length + 1 ≥ MAX_PLUGIN_NAME
        · rw [if_pos hlong]
          exact .stopped (Nat.le_refl i) hi (hstop.2 (Or.inl hlong)) (by decide)
        rw [if_neg hlong]
        by_cases hmem : pluginName resO ∈ (List.range i).map (runName run)
        · rw [decide_eq_true hmem]
          exact .stopped (Nat.le_refl i) hi (hstop.2 (Or.inr (Or.inl hmem))) (by decide)
        rw [decide_eq_false hmem]
        simp only [bind, Except.bind, Bool.false_eq_true, if_false]
        rw [isPluginInList_eq runO _ hrun hi, hpRes]
        by_cases hlong' : (pluginName runO).length + 1 ≥ MAX_PLUGIN_NAME
        · rw [if_pos hlong']
          exact .stopped (Nat.le_refl i) hi (hstop.2 (Or.inr (Or.inr (Or.inl hlong')))) (by decide)
        rw [if_neg hlong']
        by_cases hmem' : pluginName runO ∈ (conf.take i).map pluginName
        · rw [decide_eq_true hmem']
          exact .stopped (Nat.le_refl i) hi (hstop.2 (Or.inr (Or.inr (Or.inr hmem')))) (by decide)
        rw [decide_eq_false hmem']
        have hgo : ¬StopsAt conf run i := by
          intro hs
          rcases hstop.1 hs with h1 | h1 | h1 | h1
          · exact hlong h1
          · exact hmem h1
          · exact hlong' h1
          · exact hmem' h1
        by_cases hne : runO ≠ resO
        · rw [if_pos hne] at hnext
          simp only [Bool.false_eq_true, if_false, if_pos hne, storeEntry_of_lt hroom]
          exact hnext.step hgo
        · rw [if_neg hne] at hnext
          simp only [Bool.false_eq_true, if_false, if_neg hne]
          exact hnext.step hgo

theorem walk_start (conf run : List Plugin) :
    Walk conf run 0 (reconfLoop MAX_PLUGINS 0 {} conf run) :=
  reconfLoop_spec (Nat.add_zero MAX_PLUGINS) ⟨Nat.zero_le _, rfl, rfl, Nat.le_refl 0, rfl⟩

/-- The memory limit does not ask for a new connection. -/
def KeepsMemlimit (deviates : Nat → Nat → Bool) (configured running : ProxyInfo) : Prop :=
  ∀ v1, configured.memlimit = some v1 → ∃ v2, running.memlimit = some v2 ∧ deviates v1 v2 = false

theorem keepsMemlimit_iff {deviates : Nat → Nat → Bool} {configured running : ProxyInfo} :
    KeepsMemlimit deviates configured running ↔
      (configured.memlimit.any fun v1 => running.memlimit.all fun v2 => deviates v1 v2) = false := by
  unfold KeepsMemlimit
  cases configured.memlimit <;> cases running.memlimit <;> simp

theorem walked_eq_iff {conf run : List Plugin} : walked conf run = conf ↔
    conf.length < MAX_PLUGINS ∨ conf.drop MAX_PLUGINS = run.drop MAX_PLUGINS := by
  unfold walked
  by_cases hlen : conf.length < MAX_PLUGINS
  · rw [if_pos hlen, List.append_nil, List.take_of_length_le hlen.le]
    exact iff_of_true rfl (Or.inl hlen)
  · rw [if_neg hlen, or_iff_right hlen]
    conv_lhs => rw [← List.take_append_drop MAX_PLUGINS conf]
    rw [List.take_left' (by rw [List.length_take]; omega), List.append_cancel_left_eq]
    exact eq_comm

/-- **The plugins get to the configured ones unless there are ten of them, or more, and the running
    ones differ behind the tenth**; the arrays are never overrun. -/
theorem proxyReconf_reaches_iff (deviates : Nat → Nat → Bool) (configured : ProxyInfo)
    (runningProxy : Option ProxyInfo) (proxyConnIsUp : Bool) :
    Reaches configured.plugins (runningProxy.elim [] ProxyInfo.plugins)
        (proxyReconf deviates configured runningProxy proxyConnIsUp) ↔
      ∀ running, runningProxy = some running → proxyConnIsUp = true →
        KeepsMemlimit deviates configured running →
        (∀ i < MAX_PLUGINS, ¬StopsAt configured.plugins running.plugins i) →
        configured.plugins.length < MAX_PLUGINS ∨
          configured.plugins.drop MAX_PLUGINS = running.plugins.drop MAX_PLUGINS := by
  cases runningProxy with
  | none => exact iff_of_true trivial fun running h => by cases h
  | some running =>
    simp only [Option.some.injEq, forall_eq', keepsMemlimit_iff, proxyReconf, Option.elim_some]
    cases proxyConnIsUp with
    | false => exact iff_of_true trivial fun h => by cases h
    | true =>
      simp only [Bool.not_true, Bool.false_eq_true, if_false, true_imp_iff]
      cases hmem : configured.memlimit.any fun v1 => running.memlimit.all fun v2 => deviates v1 v2 with
      | true => exact iff_of_true trivial fun h => by cases h
      | false =>
        simp only [Bool.false_eq_true, if_false, true_imp_iff]
        have hwalk := walk_start configured.plugins running.plugins
        cases hloop : reconfLoop MAX_PLUGINS 0 {} configured.plugins running.plugins with
        | error e =>
          rw [hloop] at hwalk
          cases hwalk with
          | stopped hij hj hstop he =>
            refine iff_of_true ?_ fun hno => absurd hstop (hno _ hj)
            cases e with
            | configInvalid => trivial
            | redoWholeConn => trivial
            | outOfBounds => exact absurd rfl he
        | ok changes =>
          rw [hloop] at hwalk
          cases hwalk with
          | through hno hreached =>
            rw [← walked_eq_iff, ← hreached]
            exact ⟨fun h _ => h, fun h => h fun j hj => hno j (Nat.zero_le j) hj⟩

/-- No plugin is running, and eleven are configured: the eleventh is not set. -/
theorem proxyReconf_drops_plugin :
    ¬Reaches ((List.range 11).map fun i => ['p', Char.ofNat (97 + i)]) []
      (proxyReconf (fun v1 v2 => decide (v1 ≠ v2))
        ⟨none, (List.range 11).map fun i => ['p', Char.ofNat (97 + i)]⟩ (some ⟨none, []⟩) true) := by
  decide +kernel

end Walk

end DrbdUtils.Adm
