import AniInference.Resources
import Mathlib.Algebra.Order.Ring.Abs
import Mathlib.Tactic.Linarith

namespace AniInference.Topology
open Lib

/-- `inferencev1.RuntimeMode`. -/
inductive RuntimeMode
  | unspecified | deployment | leaderWorkerSet
  | other (number : Int)
deriving DecidableEq, Repr

/-- `runtimeMode`: the text a mode is kept as. -/
def runtimeMode : RuntimeMode → String
  | .unspecified | .deployment => "deployment"
  | .leaderWorkerSet => "leader_worker_set"
  | .other _ => "unsupported"

/-- `int64(replicas) * (int64(workers) + 1)`. -/
def podProduct (replicas workers : Int32) : Int64 := replicas.toInt64 * (workers.toInt64 + 1)

/-- `gpu.TotalPods`, in the machine's integers. -/
def totalPods (replicas : Int32) (mode : String) (workers : Int32) : Except Err Int32 :=
  if replicas < 1 then .error (.text "replicas must be positive")
  else if mode = "" ∨ mode = "deployment" then
    if workers > 1 ∨ workers < 0 then
      .error (.text "worker_replicas is only valid for leader_worker_set")
    else .ok replicas
  else if mode = "leader_worker_set" then
    if workers < 1 then .error (.text "leader_worker_set requires workers")
    else if podProduct replicas workers > 2147483647 then
      .error (.text "GPU topology overflows pod count")
    else .ok (podProduct replicas workers).toInt32
  else .error (.text s!"unsupported runtime mode {quoted mode}")

/-- The units `resources.Aggregate` computes. -/
def units (replicas : Int32) (mode : String) (workers : Int32) : Except Err Int64 :=
  if replicas < 1 then .error (.text "replicas must be positive")
  else if mode = "" ∨ mode = "deployment" then
    if workers > 1 ∨ workers < 0 then
      .error (.text "worker_replicas is only valid for leader_worker_set runtime")
    else .ok replicas.toInt64
  else if mode = "leader_worker_set" then
    if workers < 1 then .error (.text "leader_worker_set requires at least one worker")
    else .ok (podProduct replicas workers)
  else .error (.text s!"unsupported runtime mode {quoted mode}")

/-- `inferencev1.RuntimeSpec`, as far as its topology is read. -/
structure RuntimeSpec where
  mode : RuntimeMode
  workerReplicas : Int32
  provider : String

/-- `ExecutionTopology`. -/
structure ExecutionTopology where
  executionReplicas : UInt32
  containerName : String
  devicesPerReplica : UInt32
  totalDevices : Int64

/-- `int64(devicesPerUnit)`. -/
def deviceCount (devices : UInt32) : Int64 := Int64.ofNat devices.toNat

/-- The checks of the product that end `NormalizeTopology`. -/
def executionTopology (pods : Int64) (container : String) (devices : UInt32) :
    Except Err ExecutionTopology :=
  if pods > 2147483647 then
    .error (.text "runtime topology overflows execution container count")
  else if devices > 0 ∧ pods > 16 then .error (.text "GPU execution container count exceeds 16")
  else if devices > 0 ∧ pods > 9223372036854775807 / deviceCount devices then
    .error (.text "GPU topology overflows total devices")
  else .ok ⟨pods.toUInt64.toUInt32, container, devices, pods * deviceCount devices⟩

/-- `NormalizeTopology`. -/
def normalizeTopology (runtime : RuntimeSpec) (replicas : Int32) (devices : UInt32) :
    Except Err ExecutionTopology :=
  let provider := Text.lower (Text.trim runtime.provider)
  let workers := runtime.workerReplicas
  if replicas < 1 then .error (.text "replicas must be positive")
  else if provider ≠ "" ∧ provider ≠ "kserve" then
    .error (.text "runtime provider must be kserve")
  else match runtime.mode with
  | .unspecified | .deployment =>
    if workers < 0 ∨ workers > 1 then .error (.text "deployment cannot specify multiple workers")
    else executionTopology replicas.toInt64 "kserve-container" devices
  | .leaderWorkerSet =>
    if workers < 1 then .error (.text "LWS worker_replicas must be positive")
    else if devices ≠ 0 then
      .error (.text "managed GPU LWS requires a synchronous pre-create projection hook")
    else executionTopology (podProduct replicas workers) "main" devices
  | .other _ => .error (.text "unsupported runtime mode")

theorem toInt_podProduct (replicas workers : Int32) :
    (podProduct replicas workers).toInt = replicas.toInt * (workers.toInt + 1) := by
  have hr := replicas.toInt_lt
  have hr' := replicas.le_toInt
  have hw := workers.toInt_lt
  have hw' := workers.le_toInt
  have hadd : (workers.toInt64 + 1).toInt = workers.toInt + 1 := by
    rw [Int64.toInt_add, Int32.toInt_toInt64, Int64.toInt_one]
    apply Int.bmod_eq_of_le <;> omega
  have hbound : |replicas.toInt * (workers.toInt + 1)| ≤ 2 ^ 31 * 2 ^ 31 := by
    rw [abs_mul]
    refine mul_le_mul (abs_le.mpr ⟨hr', by omega⟩) (abs_le.mpr ⟨by omega, by omega⟩) (abs_nonneg _)
      (by norm_num)
  obtain ⟨hlow, hhigh⟩ := abs_le.mp hbound
  rw [podProduct, Int64.toInt_mul, Int32.toInt_toInt64, hadd]
  apply Int.bmod_eq_of_le <;> omega

theorem lt_one_iff {n : Int32} : n < 1 ↔ n.toInt < 1 := Int32.lt_iff_toInt_lt

theorem lt_zero_iff {n : Int32} : n < 0 ↔ n.toInt < 0 := Int32.lt_iff_toInt_lt

theorem one_lt_iff {n : Int32} : n > 1 ↔ n.toInt > 1 := Int32.lt_iff_toInt_lt

theorem too_many_iff {n : Int64} : n > 2147483647 ↔ n.toInt > 2 ^ 31 - 1 := Int64.lt_iff_toInt_lt

/-- The machine's `TotalPods` is the exact one. -/
theorem toInt_totalPods (replicas : Int32) (mode : String) (workers : Int32) :
    (totalPods replicas mode workers).map Int32.toInt =
      Gpu.totalPods replicas.toInt mode workers.toInt := by
  unfold totalPods Gpu.totalPods
  simp only [lt_one_iff, lt_zero_iff, one_lt_iff, too_many_iff, toInt_podProduct]
  split
  · rfl
  next hreplicas =>
    split
    · split <;> rfl
    · split
      · split
        · rfl
        next hworkers =>
          split
          · rfl
          next hsmall =>
            have hpos : 0 ≤ replicas.toInt * (workers.toInt + 1) :=
              Int.mul_nonneg (by omega) (by omega)
            have hfits : (podProduct replicas workers).toInt32.toInt =
                replicas.toInt * (workers.toInt + 1) := by
              rw [Int64.toInt_toInt32, toInt_podProduct]
              apply Int.bmod_eq_of_le <;> omega
            exact congrArg Except.ok hfits
      · rfl

theorem toInt_units (replicas : Int32) (mode : String) (workers : Int32) :
    (units replicas mode workers).map Int64.toInt =
      Resources.units replicas.toInt mode workers.toInt := by
  unfold units Resources.units
  simp only [lt_one_iff, lt_zero_iff, one_lt_iff]
  split
  · rfl
  · split
    · split
      · rfl
      · exact congrArg Except.ok (Int32.toInt_toInt64 replicas)
    · split
      · split
        · rfl
        · exact congrArg Except.ok (toInt_podProduct replicas workers)
      · rfl

/-- The pods of a runtime shape. -/
def pods (replicas : Int) (mode : String) (workers : Int) : Int :=
  if mode = "leader_worker_set" then replicas * (workers + 1) else replicas

theorem totalPods_ok (h : Gpu.totalPods replicas mode workers = .ok n) :
    n = pods replicas mode workers := by
  unfold Gpu.totalPods at h
  split at h
  · cases h
  split at h
  · next hmode =>
    split at h
    · cases h
    · cases h
      rcases hmode with rfl | rfl <;> rfl
  · split at h
    · next hmode =>
      split at h
      · cases h
      split at h
      · cases h
      · cases h
        rw [pods, if_pos hmode]
    · cases h

theorem units_ok (h : Resources.units replicas mode workers = .ok n) :
    n = pods replicas mode workers := by
  unfold Resources.units at h
  split at h
  · cases h
  split at h
  · next hmode =>
    split at h
    · cases h
    · cases h
      rcases hmode with rfl | rfl <;> rfl
  · split at h
    · next hmode =>
      split at h
      · cases h
      · cases h
        rw [pods, if_pos hmode]
    · cases h

theorem toInt_deviceCount (devices : UInt32) : (deviceCount devices).toInt = devices.toNat := by
  have hlt := devices.toNat_lt
  exact Int64.toInt_ofNat_of_lt (by omega)

theorem toNat_low32 {n : Int64} (hn : 0 ≤ n.toInt) (hsmall : n.toInt ≤ 2 ^ 31 - 1) :
    (n.toUInt64.toUInt32.toNat : Int) = n.toInt := by
  have hbits : n.toInt = (n.toUInt64.toNat : Int).bmod (2 ^ 64) := by
    rw [← Int64.toInt_toBitVec, BitVec.toInt_eq_toNat_bmod]
    rfl
  have hlt := n.toUInt64.toNat_lt
  rw [UInt64.toNat_toUInt32]
  rw [hbits, Int.bmod_def] at hn hsmall ⊢
  split <;> omega

theorem executionTopology_ok {n : Int64} {devices : UInt32} {t : ExecutionTopology}
    (hn : 0 ≤ n.toInt) (h : executionTopology n container devices = .ok t) :
    (t.executionReplicas.toNat : Int) = n.toInt ∧
      t.totalDevices.toInt = n.toInt * devices.toNat := by
  have hdevices := devices.toNat_lt
  unfold executionTopology at h
  split at h
  · cases h
  next hsmall =>
    rw [too_many_iff] at hsmall
    split at h
    · cases h
    split at h
    · cases h
    cases h
    refine ⟨toNat_low32 hn (by omega), ?_⟩
    rw [Int64.toInt_mul, toInt_deviceCount]
    have hbound : n.toInt * devices.toNat ≤ (2 ^ 31 - 1) * (2 ^ 32 - 1) :=
      mul_le_mul (by omega) (by omega) (by omega) (by norm_num)
    have hpos : 0 ≤ n.toInt * devices.toNat := Int.mul_nonneg hn (by omega)
    apply Int.bmod_eq_of_le <;> omega

/-- The machine's `NormalizeTopology` is exact. -/
theorem normalizeTopology_ok {runtime : RuntimeSpec} {replicas : Int32} {devices : UInt32}
    {t : ExecutionTopology} (h : normalizeTopology runtime replicas devices = .ok t) :
    (t.executionReplicas.toNat : Int) =
        pods replicas.toInt (runtimeMode runtime.mode) runtime.workerReplicas.toInt ∧
      t.totalDevices.toInt = t.executionReplicas.toNat * devices.toNat := by
  unfold normalizeTopology at h
  dsimp only at h
  split at h
  · cases h
  next hreplicas =>
    rw [lt_one_iff] at hreplicas
    have hplain : ∀ container, executionTopology replicas.toInt64 container devices = .ok t →
        (t.executionReplicas.toNat : Int) = replicas.toInt ∧
          t.totalDevices.toInt = t.executionReplicas.toNat * devices.toNat := by
      intro container h
      obtain ⟨hcount, htotal⟩ := executionTopology_ok (by rw [Int32.toInt_toInt64]; omega) h
      rw [Int32.toInt_toInt64] at hcount htotal
      exact ⟨hcount, by rw [htotal, hcount]⟩
    split at h
    · cases h
    split at h
    · next hmode =>
      split at h
      · cases h
      · rw [hmode]
        exact hplain _ h
    · next hmode =>
      split at h
      · cases h
      · rw [hmode]
        exact hplain _ h
    · next hmode =>
      split at h
      · cases h
      next hworkers =>
        rw [lt_one_iff] at hworkers
        split at h
        · cases h
        have hpos : 0 ≤ (podProduct replicas runtime.workerReplicas).toInt := by
          rw [toInt_podProduct]
          exact Int.mul_nonneg (by omega) (by omega)
        obtain ⟨hcount, htotal⟩ := executionTopology_ok hpos h
        rw [toInt_podProduct] at hcount htotal
        rw [hmode]
        exact ⟨hcount, by rw [htotal, hcount]⟩
    · cases h

/-- A kept mode stands for one of a request. -/
def SameMode (mode : String) (requested : RuntimeMode) : Prop :=
  mode = runtimeMode requested ∨ (mode = "" ∧ runtimeMode requested = "deployment")

theorem SameMode.pods (h : SameMode mode requested) (replicas workers : Int) :
    pods replicas mode workers = pods replicas (runtimeMode requested) workers := by
  rcases h with rfl | ⟨rfl, hmode⟩
  · rfl
  · rw [hmode]
    rfl

/-- The three computations of how many containers a shape runs: none wraps, and any two that accept
a shape agree on it. -/
structure Agreement (replicas workers : Int32) : Prop where
  totalPods_exact : ∀ mode, (totalPods replicas mode workers).map Int32.toInt =
    Gpu.totalPods replicas.toInt mode workers.toInt
  units_exact : ∀ mode, (units replicas mode workers).map Int64.toInt =
    Resources.units replicas.toInt mode workers.toInt
  topology_exact : ∀ runtime devices t, runtime.workerReplicas = workers →
    normalizeTopology runtime replicas devices = .ok t →
    (t.executionReplicas.toNat : Int) =
        Topology.pods replicas.toInt (runtimeMode runtime.mode) workers.toInt ∧
      t.totalDevices.toInt = t.executionReplicas.toNat * devices.toNat
  totalPods_units : ∀ mode n m, totalPods replicas mode workers = .ok n →
    units replicas mode workers = .ok m → n.toInt = m.toInt
  totalPods_topology : ∀ mode n runtime devices t, SameMode mode runtime.mode →
    runtime.workerReplicas = workers → totalPods replicas mode workers = .ok n →
    normalizeTopology runtime replicas devices = .ok t → n.toInt = t.executionReplicas.toNat
  units_topology : ∀ mode n runtime devices t, SameMode mode runtime.mode →
    runtime.workerReplicas = workers → units replicas mode workers = .ok n →
    normalizeTopology runtime replicas devices = .ok t → n.toInt = t.executionReplicas.toNat

theorem totalPods_toInt (h : totalPods replicas mode workers = .ok n) :
    n.toInt = pods replicas.toInt mode workers.toInt := by
  have hexact := toInt_totalPods replicas mode workers
  rw [h] at hexact
  exact totalPods_ok hexact.symm

theorem units_toInt (h : units replicas mode workers = .ok n) :
    n.toInt = pods replicas.toInt mode workers.toInt := by
  have hexact := toInt_units replicas mode workers
  rw [h] at hexact
  exact units_ok hexact.symm

theorem agreement (replicas workers : Int32) : Agreement replicas workers where
  totalPods_exact mode := toInt_totalPods replicas mode workers
  units_exact mode := toInt_units replicas mode workers
  topology_exact := by
    rintro runtime devices t rfl h
    exact normalizeTopology_ok h
  totalPods_units mode n m hn hm := by rw [totalPods_toInt hn, units_toInt hm]
  totalPods_topology := by
    rintro mode n runtime devices t hmode rfl hn ht
    rw [totalPods_toInt hn, (normalizeTopology_ok ht).1, hmode.pods]
  units_topology := by
    rintro mode n runtime devices t hmode rfl hn ht
    rw [units_toInt hn, (normalizeTopology_ok ht).1, hmode.pods]

end AniInference.Topology
