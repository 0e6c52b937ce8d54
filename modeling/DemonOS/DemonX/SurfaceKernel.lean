import DemonOS.DemonX.Server
import DemonOS.Surface

/-!
# The kernel under the DemonX server's drawing

The system calls of `src/arch/x86_64/userspace.c` that create, write, damage and map a surface, over
the surfaces of the kernel and the handles the server holds. A mapped surface is read where it lies
in the arena. What the surfaces do not decide is left to a parameter: the handle of a new surface,
where a mapping comes to lie, if there is room for them, and the answers to the other calls.
-/

namespace DemonOS

namespace DemonX

/-- A handle of the server's to a surface: one that another process has shared may only be read. -/
structure SurfaceGrant where
  object : ℕ
  writable : Bool

/-- The surfaces, and the process of the server with its handles to them. -/
structure SurfaceKernel where
  surfaces : Surfaces
  pid : ℕ
  grant : UInt32 → Option SurfaceGrant

namespace SurfaceKernel

/-- The object behind a handle that may be written. -/
def writable (k : SurfaceKernel) (surface : UInt32) : Option ℕ :=
  match k.grant surface with
  | none => none
  | some g => if g.writable then some g.object else none

/-- `SYSCALL_SURFACE_WRITE`. -/
def write (k : SurfaceKernel) (surface : UInt32) (pixels : List UInt32) (offset : ℕ) :
    Option SurfaceKernel :=
  if surfaceMaxWidth * surfaceMaxHeight < pixels.length then none
  else match k.writable surface with
    | none => none
    | some object => (k.surfaces.surfaceWrite object offset pixels).map fun surfaces =>
        { k with surfaces := surfaces }

/-- `SYSCALL_SURFACE_DAMAGE`. -/
def damage (k : SurfaceKernel) (surface x y width height : UInt32) : Option SurfaceKernel :=
  match k.writable surface with
  | none => none
  | some object =>
    (k.surfaces.surfaceDamage object x.toNat y.toNat width.toNat height.toNat).map fun surfaces =>
      { k with surfaces := surfaces }

/-- `SYSCALL_SURFACE_CREATE`: the surface is given up again where there is no handle for it. -/
def create (k : SurfaceKernel) (handle : UInt64) (width height : ℕ) : Option SurfaceKernel :=
  if handle = failure ∨ (k.grant handle.toUInt32).isSome then none
  else (k.surfaces.surfaceCreate k.pid width height).map fun created =>
    { k with
      surfaces := created.2
      grant := Function.update k.grant handle.toUInt32 (some ⟨created.1, true⟩) }

/-- Where the pixels of a surface start in the arena, how many there are, and its size. -/
def data (k : SurfaceKernel) (surface : UInt32) : Option (ℕ × ℕ × ℕ × ℕ) :=
  match k.grant surface with
  | none => none
  | some g => k.surfaces.surfaceData g.object

/-- A place of a mapped surface. -/
def pixel (k : SurfaceKernel) (surface : UInt32) (index : ℕ) : UInt32 :=
  match k.data surface with
  | none => 0
  | some d => k.surfaces.pixels (d.1 + index)

/-- One system call; `other` is the handle of a new surface, where a mapping lies, and the answer of
the calls for no surface. -/
def answer (k : SurfaceKernel) (other : UInt64) : SystemCall → UInt64 × SurfaceKernel
  | .surfaceCreate _ width height =>
    match k.create other width height with
    | none => (failure, k)
    | some k => (other, k)
  | .surfaceWrite surface pixels offset =>
    match k.write surface pixels offset with
    | none => (failure, k)
    | some k => (UInt64.ofNat pixels.length, k)
  | .surfaceDamage surface x y width height =>
    match k.damage surface x y width height with
    | none => (failure, k)
    | some k => (0, k)
  | .surfaceMap surface => (if (k.data surface).isSome then other else failure, k)
  | .readPixel surface index => ((k.pixel surface index).toUInt64, k)
  | _ => (other, k)

def replay (k : SurfaceKernel) (other : Answers) : List SystemCall → SurfaceKernel
  | [] => k
  | c :: calls => ((k.replay other calls).answer (other (c :: calls)) c).2

def answers (k : SurfaceKernel) (other : Answers) : Answers
  | [] => 0
  | c :: calls => ((k.replay other calls).answer (other (c :: calls)) c).1

def behind (k : SurfaceKernel) (other : Answers) (s : Server) : SurfaceKernel :=
  k.replay other s.calls

end SurfaceKernel

end DemonX

end DemonOS
