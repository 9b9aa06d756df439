import JobBinding.Binding.Tool
import JobBinding.Text.Lines

/-!
# Listings of GPUs

What the listing tools of the vendors print, line by line, and the identifiers in it.

```text
GPU 0: NVIDIA A100 (UUID: GPU-8f2b6e3c)
  MIG 3g.20gb     Device  0: (UUID: MIG-6d1e6c0e)
```

In a listing of NVIDIA devices every line must name a device. An instance subdivides a GPU, so if
any instance is listed, only instances count. In a listing of AMD devices lines without an
identifier are headings.
-/

namespace JobBinding.Listing

open Text

/-- A device of a listing: a whole GPU or an instance on one. -/
inductive Device where
  | gpu (id : List Char)
  | instance (id : List Char)
  deriving DecidableEq, Repr

/-- The identifier of a whole GPU. -/
def Device.gpu? : Device → Option (List Char)
  | .gpu id => some id
  | .instance _ => none

/-- The identifier of an instance. -/
def Device.instance? : Device → Option (List Char)
  | .gpu _ => none
  | .instance id => some id

/-- Stands before the identifier in a listing of NVIDIA devices. -/
def uuidMarker : List Char := "(UUID: ".toList

/-- Begins the identifier of a whole GPU. -/
def gpuTag : List Char := "GPU-".toList

/-- Begins the identifier of an instance. -/
def instanceTag : List Char := "MIG-".toList

/-- The kind of device that an identifier is of, and the text after the tag of the kind. -/
def deviceKind (cs : List Char) : Except Mismatch ((List Char → Device) × List Char) :=
  match afterPrefix? gpuTag cs with
  | some rest => .ok (.gpu, rest)
  | none => do
    let rest ← Scan.literal instanceTag cs
    return (.instance, rest)

/-- The device that a line names. Text after the closing parenthesis is ignored. -/
def device (line : List Char) : Except Mismatch Device := do
  let (_, rest) ← Scan.upTo uuidMarker line
  let (kind, rest) ← deviceKind rest
  let (id, _) ← Scan.upTo [')'] rest
  return kind id

/-- The devices that some lines name. The failure shows the first line that names none. -/
def devices : List (List Char) → Except Failure (List Device)
  | [] => .ok []
  | line :: rest => match device line with
    | .error stop => .error (.probe (.unexpectedLine "nvidia-smi" line stop))
    | .ok d => do return d :: (← devices rest)

/-- The identifiers that count among some devices. -/
def identifiers (ds : List Device) : List (List Char) :=
  match ds.filterMap Device.instance? with
  | [] => ds.filterMap Device.gpu?
  | instances => instances

/-- The identifiers in a listing of NVIDIA devices. -/
def nvidia (text : String) : Except Failure (List String) := do
  return (identifiers (← devices (lines text.toList))).map String.ofList

/-- Stands before the identifier in a listing of AMD devices. -/
def uniqueIdMarker : List Char := "Unique ID: ".toList

/-- The identifier in a line of a listing of AMD devices. -/
def uniqueId? (line : List Char) : Option (List Char) :=
  (splitAtMarker? uniqueIdMarker line).map fun (_, rest) => trimChars rest

/-- The identifiers in a listing of AMD devices. -/
def amd (text : String) : List String :=
  ((lines text.toList).filterMap uniqueId?).map String.ofList

end JobBinding.Listing

namespace JobBinding

/-- The GPUs of a vendor that the vendor's tool lists. -/
def Tools.gpus (tools : Tools) : Vendor → Except Failure (List String)
  | .none => .ok []
  | .nvidia => tools.listing "nvidia-smi" >>= Listing.nvidia
  | .amd => do return Listing.amd (← tools.listing "rocm-smi")

/-- The probe of a process with a host name and some cores, which runs the installed tools. -/
def Tools.probe (tools : Tools) (hostname : String) (cores : SortedSet CoreId) : Probe :=
  ⟨.ok hostname, .ok cores, tools.gpus⟩

end JobBinding
