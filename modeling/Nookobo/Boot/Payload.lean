import Nookobo.Semantics.Run
import Nookobo.Text.Scan

/-!
# The boot script: installing a staged payload

`boot_linux.sh` looks for `deploy_payload.tar.gz` in three places, at boot and again before
every session of its supervisor loop. A payload with a checksum next to it is compared with
it, by whatever tool there is, and kept for a retry when the two differ. Otherwise it is
unpacked into the root file system and removed.

That `tar` failed does not keep it from being removed: the exit status ends in `|| true`.
`payload_kept_exact` says that this is the only way in which a payload is lost.
-/

namespace Nookobo.Boot

open Nookobo.Semantics Nookobo.Text

/-! ## The tools -/

/-- Where a payload may be staged, in the order in which the script looks. -/
inductive Location where
  | sdcard
  | media
  | data
deriving DecidableEq, Repr

/-- `awk '{print $1}'` on the first line. -/
def firstField (text : List UInt8) : List UInt8 :=
  ((text.takeWhile (· ≠ lineFeed)).dropWhile isSpace).takeWhile fun byte => !isSpace byte

/-- What the checksum programs print, for those that can be run, and whether `head` and `awk`
work at all. -/
structure ChecksumTools where
  textTools : Bool := true
  toybox : Option (List UInt8) := none
  sha256sum : Option (List UInt8) := none
  muslBusybox : Option (List UInt8) := none
deriving DecidableEq, Repr

namespace ChecksumTools

/-- `| bb_awk '{print $1}'`. -/
def field (tools : ChecksumTools) (text : List UInt8) : List UInt8 :=
  if tools.textTools then firstField text else []

/-- `WANT_SHA`. -/
def wantSha (tools : ChecksumTools) (sha256 : List UInt8) : List UInt8 := tools.field sha256

/-- `GOT_SHA`: only the first program that is there is asked. -/
def gotSha (tools : ChecksumTools) : List UInt8 :=
  match tools.toybox with
  | some output => tools.field output
  | none =>
      match tools.sha256sum with
      | some output => tools.field output
      | none =>
          match tools.muslBusybox with
          | some output => tools.field output
          | none => []

end ChecksumTools

/-- The programs `run_tar` chooses from. -/
inductive TarBackend where
  | systemTar
  | systemBusybox
  | sbinBusybox
  | muslBusybox
  | rootfsTar
  | pathTar
deriving DecidableEq, Repr

/-- Which of them can be run, and whether they unpack the whole archive. -/
structure TarTools where
  runs : TarBackend → Bool
  unpacks : TarBackend → Bool

/-- `run_tar`. -/
def runTar (tools : TarTools) : Bool :=
  if tools.runs .systemTar then tools.unpacks .systemTar
  else if tools.runs .systemBusybox then tools.unpacks .systemBusybox
  else if tools.runs .sbinBusybox then tools.unpacks .sbinBusybox
  else if tools.runs .muslBusybox then tools.unpacks .muslBusybox
  else if tools.runs .rootfsTar then tools.unpacks .rootfsTar
  else tools.unpacks .pathTar

/-! ## The device -/

/-- The staged files, what `tar` has put into the root file system and whether that was the
whole archive each time, and whether the supervisor loop runs. -/
structure Device where
  payload : Location → Option (List UInt8) := fun _ => none
  sha256 : Location → Option (List UInt8) := fun _ => none
  unpacked : List (List UInt8 × Bool) := []
  supervising : Bool := false

namespace Device

/-- `PAYLOAD_SRC`. -/
def payloadSrc (device : Device) : Option Location :=
  if (device.payload .sdcard).isSome then some .sdcard
  else if (device.payload .media).isSome then some .media
  else if (device.payload .data).isSome then some .data
  else none

/-- The checksum that can be had differs from the one that was staged. -/
def mismatch (tools : ChecksumTools) (sha256 : Option (List UInt8)) : Bool :=
  match sha256 with
  | none => false
  | some text =>
      tools.gotSha ≠ [] && tools.wantSha text ≠ [] && tools.gotSha ≠ tools.wantSha text

/-- `unpack_payload_if_present`. -/
def unpackPayloadIfPresent (checksum : ChecksumTools) (tar : TarTools) (device : Device) :
    Device :=
  match device.payloadSrc with
  | none => device
  | some src =>
      if mismatch checksum (device.sha256 src) then device
      else
        -- `run_tar ... || true`, and then `rm -f`
        { device with
          unpacked := device.unpacked ++ [((device.payload src).getD [], runTar tar)]
          payload := fun location => if location = src then none else device.payload location
          sha256 := fun location => if location = src then none else device.sha256 location }

/-- A payload is copied to the device, with or without a checksum; the script is started; or
the supervisor loop comes round, at first and after every session. -/
inductive Label where
  | stage (location : Location) (payload : List UInt8) (sha256 : Option (List UInt8))
  | boot (checksum : ChecksumTools) (tar : TarTools) (initSystem : Bool)
  | respawn (checksum : ChecksumTools) (tar : TarTools)

/-- What each of them does to the device. -/
def step (device : Device) : Label → Device
  | .stage location payload sha256 =>
      { device with
        payload := fun other => if other = location then some payload else device.payload other
        sha256 := fun other =>
          if other = location then sha256.or (device.sha256 other) else device.sha256 other }
  | .boot checksum tar initSystem =>
      { device.unpackPayloadIfPresent checksum tar with supervising := initSystem }
  | .respawn checksum tar =>
      if device.supervising then device.unpackPayloadIfPresent checksum tar else device

/-- The device from the first boot on. -/
def machine : Machine Device Label where
  initial := {}
  step := step

/-! ## No payload is lost -/

/-- A payload that is gone has been unpacked completely, and one with the wrong checksum is
still there and has not been unpacked. -/
structure Careful (checksum : ChecksumTools) (before after : Device) : Prop where
  removed : ∀ location payload, before.payload location = some payload →
    after.payload location = none → after.unpacked = before.unpacked ++ [(payload, true)]
  refused : ∀ src ∈ before.payloadSrc, mismatch checksum (before.sha256 src) = true →
    after.payload = before.payload ∧ after.unpacked = before.unpacked

/-- The step is careful with what was staged. -/
def Keeps (device : Device) (label : Label) : Prop :=
  match label with
  | .stage _ _ _ => True
  | .boot checksum _ _ | .respawn checksum _ => Careful checksum device (device.step label)

/-- If there is a payload and nothing against its checksum, `tar` unpacks it completely. -/
def TarUnpacks (checksum : ChecksumTools) (tar : TarTools) (device : Device) : Prop :=
  ∀ src ∈ device.payloadSrc, mismatch checksum (device.sha256 src) = false → runTar tar = true

instance (checksum : ChecksumTools) (tar : TarTools) (device : Device) :
    Decidable (device.TarUnpacks checksum tar) := by
  unfold TarUnpacks
  infer_instance

/-- The same for the call that a step makes. -/
def Unpacks (device : Device) : Label → Prop
  | .stage _ _ _ => True
  | .boot checksum tar _ => device.TarUnpacks checksum tar
  | .respawn checksum tar => device.supervising = true → device.TarUnpacks checksum tar

instance (device : Device) (label : Label) : Decidable (device.Unpacks label) := by
  cases label <;> unfold Unpacks <;> infer_instance

/-- A payload that is found is there. -/
theorem payload_of_payloadSrc {device : Device} {src : Location}
    (found : device.payloadSrc = some src) : ∃ payload, device.payload src = some payload := by
  apply Option.isSome_iff_exists.mp
  unfold payloadSrc at found
  split_ifs at found with sdcard media data
  · cases found
    exact sdcard
  · cases found
    exact media
  · cases found
    exact data

/-- Doing nothing is careful. -/
theorem careful_refl (checksum : ChecksumTools) (device : Device) :
    Careful checksum device device where
  removed := by
    intro location payload there gone
    rw [there] at gone
    cases gone
  refused := fun _ _ _ => ⟨rfl, rfl⟩

/-- One call is careful exactly if `tar` does its part. -/
theorem careful_unpack_iff (checksum : ChecksumTools) (tar : TarTools) (device : Device) :
    Careful checksum device (device.unpackPayloadIfPresent checksum tar) ↔
      device.TarUnpacks checksum tar := by
  unfold unpackPayloadIfPresent TarUnpacks
  cases found : device.payloadSrc with
  | none =>
      refine ⟨fun _ => ?_, fun _ => careful_refl checksum device⟩
      rintro _ ⟨⟩
  | some src =>
      obtain ⟨payload, there⟩ := payload_of_payloadSrc found
      cases differs : mismatch checksum (device.sha256 src) with
      | true =>
          simp only [differs, if_true]
          refine ⟨fun _ => ?_, fun _ => careful_refl checksum device⟩
          rintro _ ⟨⟩ agrees
          rw [differs] at agrees
          cases agrees
      | false =>
          simp only [differs, Bool.false_eq_true, if_false, there, Option.getD_some]
          constructor
          · rintro careful _ ⟨⟩ _
            have unpacked := careful.removed src payload there (if_pos rfl)
            simp only [List.append_cancel_left_eq, List.cons.injEq, Prod.mk.injEq, true_and,
              and_true] at unpacked
            exact unpacked
          · intro unpacks
            have complete := unpacks src rfl differs
            refine ⟨?_, ?_⟩
            · intro location other staged gone
              by_cases same : location = src
              · subst same
                obtain rfl : payload = other := Option.some_inj.mp (there.symm.trans staged)
                rw [complete]
              · have kept : device.payload location = none := (if_neg same).symm.trans gone
                rw [staged] at kept
                cases kept
            · intro other same mismatched
              rw [found] at same
              cases same
              rw [differs] at mismatched
              cases mismatched

/-- Every payload is kept exactly when it is unpacked before it goes. -/
theorem keeps_iff (device : Device) (label : Label) :
    device.Keeps label ↔ device.Unpacks label := by
  cases label with
  | stage => exact Iff.rfl
  | boot checksum tar initSystem =>
      rw [Unpacks, ← careful_unpack_iff]
      exact ⟨fun careful => ⟨careful.removed, careful.refused⟩,
        fun careful => ⟨careful.removed, careful.refused⟩⟩
  | respawn checksum tar =>
      rw [Unpacks, ← careful_unpack_iff]
      simp only [Keeps, step]
      split
      · next supervising => exact ⟨fun careful _ => careful, fun careful => careful supervising⟩
      · next idle =>
          exact ⟨fun _ supervising => absurd supervising idle,
            fun _ => careful_refl checksum device⟩

/-- Over any sequence of staging, boots and respawns, no payload is lost exactly if `tar`
unpacks every payload that it is given. -/
theorem payload_kept_exact (device : Device) (labels : List Label) :
    machine.StepsMeet Keeps device labels ↔ machine.StepsMeet Unpacks device labels :=
  Machine.stepsMeet_congr keeps_iff

/-- Whatever has `tar` fail, such as a full file system, loses the payload. -/
theorem payload_lost_when_tar_fails :
    ¬ machine.StepsMeet Keeps {}
      [.stage .data [1, 2, 3] none,
        .boot {} { runs := fun _ => false, unpacks := fun _ => false } false] := by
  rw [Machine.stepsMeet_congr keeps_iff]
  decide

end Device

end Nookobo.Boot
