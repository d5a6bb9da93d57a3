/-
# KubeAutopsy.Agent.Identity — a container's ID from its cgroup to its pod's status

A container is known to the kernel by the name of its cgroup's directory and to the API
server by the ID in its pod's status.  The name is stored in a fixed buffer, read back, and
stripped of what the cgroup driver put around the ID; the status has the runtime's scheme
before it.  `identity_survives`: the two match exactly if the IDs are the same.
-/
import KubeAutopsy.Agent.Attribution
import KubeAutopsy.Agent.Kprobe

namespace KubeAutopsy.Agent

open KubeAutopsy.Agent.Attribution (containerIDsMatch_scheme)
open KubeAutopsy.Agent.Kprobe
open KubeAutopsy.Theory.Bytes (GoString lit)

set_option autoImplicit false

/-! ## Names in a buffer -/

/-- The buffer holds `name` and its terminator; what is behind them does not matter. -/
def Terminated {n : Nat} (field : Vector Int8 n) (name : GoString) : Prop :=
  ∃ rest, field.toList = name.map UInt8.toInt8 ++ 0 :: rest

theorem parseComm_append {name : GoString} (clean : 0 ∉ name) (rest : List Int8) :
    parseComm (name.map UInt8.toInt8 ++ 0 :: rest) = name := by
  induction name with
  | nil => simp [parseComm]
  | cons b name ih =>
      obtain ⟨head, tail⟩ : (0 : UInt8) ≠ b ∧ 0 ∉ name := by simpa using clean
      have kept : b.toInt8 ≠ 0 := by
        intro zero
        have back := congrArg Int8.toUInt8 zero
        rw [UInt8.toUInt8_toInt8] at back
        exact head back.symm
      rw [List.map_cons, List.cons_append, parseComm_cons, if_neg kept, ih tail,
        UInt8.toUInt8_toInt8]

theorem Terminated.parseComm {n : Nat} {field : Vector Int8 n} {name : GoString}
    (stored : Terminated field name) (clean : 0 ∉ name) : parseComm field.toList = name := by
  obtain ⟨rest, bytes⟩ := stored
  rw [bytes, parseComm_append clean]

/-- The kernel program stores a name that leaves room for the terminator. -/
theorem terminated_readStr {n : Nat} {name : GoString} (short : name.length < n) :
    Terminated (readStr n name) name := by
  have whole : name.take (n - 1) = name := List.take_of_length_le (by omega)
  have zeros : (0 : Int8) :: List.replicate (n - 1 - name.length) 0 =
      List.replicate (n - name.length) 0 := by
    rw [← List.replicate_succ]
    congr 1
    omega
  refine ⟨List.replicate (n - 1 - name.length) 0, ?_⟩
  rw [zeros]
  apply List.ext_getElem
  · simp only [Vector.length_toList, List.length_append, List.length_map, List.length_replicate]
    omega
  · intro i inside _
    simp only [readStr, whole, Vector.getElem_toList, Vector.getElem_ofFn]
    by_cases early : i < name.length
    · rw [List.getElem_append_left (by simpa using early), List.getElem_map,
        List.getD_eq_getElem name 0 early]
    · rw [List.getElem_append_right (by simpa using early), List.getElem_replicate,
        List.getD_eq_default name 0 (by omega)]
      rfl

/-! ## What a cgroup driver puts around an ID -/

def isHexDigit (b : UInt8) : Bool :=
  decide ((0x30 ≤ b ∧ b ≤ 0x39) ∨ (0x41 ≤ b ∧ b ≤ 0x46) ∨ (0x61 ≤ b ∧ b ≤ 0x66))

/-- A container's ID. -/
@[ext] structure ContainerID where
  text : GoString
  nonempty : text ≠ []
  hex : ∀ b ∈ text, isHexDigit b

inductive CgroupDriver where
  /-- what the runtime puts before the ID -/
  | systemd (runtime : GoString)
  | cgroupfs
  deriving DecidableEq, Repr

/-- The name of a container's cgroup directory. -/
def CgroupDriver.directory (driver : CgroupDriver) (id : ContainerID) : GoString :=
  match driver with
  | .systemd runtime => runtime ++ lit "-" ++ id.text ++ lit ".scope"
  | .cgroupfs => id.text

/-- File names have no zero byte. -/
def CgroupDriver.NulFree : CgroupDriver → Prop
  | .systemd runtime => 0 ∉ runtime
  | .cgroupfs => True

theorem ContainerID.absent (id : ContainerID) {b : UInt8} (other : isHexDigit b = false) :
    b ∉ id.text := by
  intro member
  have digit := id.hex b member
  rw [other] at digit
  exact absurd digit (by decide)

theorem CgroupDriver.directory_clean {driver : CgroupDriver} (clean : driver.NulFree)
    (id : ContainerID) : 0 ∉ driver.directory id := by
  have digits : 0 ∉ id.text := id.absent (by decide)
  cases driver with
  | cgroupfs => exact digits
  | systemd runtime =>
      have before : 0 ∉ runtime := clean
      have dash : 0 ∉ lit "-" := by decide
      have scope : 0 ∉ lit ".scope" := by decide
      simp [CgroupDriver.directory, before, digits, dash, scope]

theorem trimSuffix_append (s tail : GoString) : trimSuffix (s ++ tail) tail = s := by
  rw [trimSuffix, if_pos (List.suffix_append s tail), List.length_append, Nat.add_sub_cancel,
    List.take_left]

/-- The ID is what is left of the name, whatever dashes the runtime's part has. -/
theorem containerIDFromCgroup_directory (driver : CgroupDriver) (id : ContainerID) :
    containerIDFromCgroup (driver.directory id) = id.text := by
  have digits : 0x2D ∉ id.text := id.absent (by decide)
  cases driver with
  | cgroupfs =>
      have whole : id.text.splitOn 0x2D = [id.text] := List.splitOn_eq_singleton digits
      simp [containerIDFromCgroup, CgroupDriver.directory, whole]
  | systemd runtime =>
      have last : (id.text ++ lit ".scope").splitOn 0x2D = [id.text ++ lit ".scope"] := by
        have scope : 0x2D ∉ lit ".scope" := by decide
        exact List.splitOn_eq_singleton (by simp [digits, scope])
      have name : (CgroupDriver.systemd runtime).directory id =
          runtime ++ 0x2D :: (id.text ++ lit ".scope") := by
        simp [CgroupDriver.directory, show lit "-" = [0x2D] by decide]
      have parts : ((CgroupDriver.systemd runtime).directory id).splitOn 0x2D =
          runtime.splitOn 0x2D ++ [id.text ++ lit ".scope"] := by
        rw [name, List.splitOn_append_cons_self, last]
      have some_ : 0 < (runtime.splitOn 0x2D).length :=
        List.length_pos_iff.2 (List.splitOn_ne_nil 0x2D runtime)
      have two : ¬ (runtime.splitOn 0x2D ++ [id.text ++ lit ".scope"]).length < 2 := by
        rw [List.length_append, List.length_singleton]
        omega
      simp only [containerIDFromCgroup, parts, if_neg two]
      rw [List.getLastD_concat, trimSuffix_append]

/-! ## From the kernel to the status -/

theorem record_cgroupName {victim : TaskStruct} {kn : KernfsNode} {name : GoString}
    (node : kernfsNode victim = some kn) (named : kn.name = some name) (current : Current)
    (oc : OomControl) : (record current oc victim).cgroupName = readStr 128 name := by
  simp only [record, fillCgroup, node, named, Option.map_some, Option.getD_some]

/-- **The kernel's name of a container matches the ID of that container and no other**,
however the buffer is filled behind the name, and in what the agent makes of the record. -/
theorem identity_survives (driver : CgroupDriver) (clean : driver.NulFree)
    (id id2 : ContainerID) (scheme : GoString) (plain : ¬ lit "://" <:+: scheme)
    (short : (driver.directory id).length ≤ 127) :
    (∀ cgroupName : Vector Int8 128, Terminated cgroupName (driver.directory id) →
      (containerIDsMatch (scheme ++ lit "://" ++ id2.text)
        (containerIDFromCgroup (parseComm cgroupName.toList)) ↔ id = id2)) ∧
    (∀ victim kn current oc pageSize now, kernfsNode victim = some kn →
      kn.name = some (driver.directory id) →
      (containerIDsMatch (scheme ++ lit "://" ++ id2.text)
        (crashEvent pageSize (record current oc victim).toBpfOomEvent now).containerID ↔
          id = id2)) := by
  have stored : ∀ cgroupName : Vector Int8 128, Terminated cgroupName (driver.directory id) →
      (containerIDsMatch (scheme ++ lit "://" ++ id2.text)
        (containerIDFromCgroup (parseComm cgroupName.toList)) ↔ id = id2) := by
    intro cgroupName terminated
    rw [terminated.parseComm (driver.directory_clean clean id),
      containerIDFromCgroup_directory, containerIDsMatch_scheme plain id2.nonempty,
      decide_eq_true_iff, ContainerID.ext_iff]
    exact eq_comm
  refine ⟨stored, ?_⟩
  intro victim kn current oc pageSize now node named
  apply stored
  rw [record_cgroupName node named]
  exact terminated_readStr (by omega)

theorem coffee_ne_nil : lit "c0ffee" ≠ [] := by decide

def coffee : ContainerID := ⟨lit "c0ffee", coffee_ne_nil, List.all_eq_true.1 (by decide)⟩

theorem identity_survives_coffee :
    containerIDsMatch (lit "containerd://c0ffee") (containerIDFromCgroup
      (parseComm (readStr 128 (lit "cri-containerd-c0ffee.scope")).toList)) = true := by
  have clean : (CgroupDriver.systemd (lit "cri-containerd")).NulFree := by
    show 0 ∉ lit "cri-containerd"
    decide
  have exactly := (identity_survives (.systemd (lit "cri-containerd")) clean coffee coffee
    (lit "containerd") (by decide) (by decide)).1
  exact (exactly _ (terminated_readStr (by decide))).2 rfl

end KubeAutopsy.Agent
