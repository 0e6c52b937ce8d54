import DemonOS.Lib.CLayout

/-!
# The tables of the DemonX server

The server of `user/demonx_server.c` has no data section: its tables and globals stand at the
addresses its macros write out, in the heap page of its process. The records are those of
`include/demon/demonx.h`.
-/

namespace DemonOS

namespace DemonX

open CLayout

def u8 : CType := scalar 1
def u16 : CType := scalar 2
def u32 : CType := scalar 4
def u64 : CType := scalar 8

def demonxTransport : CType := packed [u32, u16, u16, u32, u32, array u8 48]

def demonxMessage : CType := packed [u32, u16, u16, u32, u32, array u8 256]

/-- The fields of `struct demonx_window`, from `id` to `saved_by`. -/
def windowFields : List CType :=
  [u32, u32, u16, u16, u16, u16, u16, u16, u32, u32, u32, u32, u32, u32, u32, u32, u32, u8, u8, u8]

def demonxWindow : CType := struct windowFields

def demonxCursor : CType := struct [u32, u16, u8, u8]

def demonxAtom : CType := packed [u32, u16, u8, u8, array u8 32]

def demonxProperty : CType := packed [u32, u32, u32, u32, u8, u8, u8, u8, array u8 24]

def demonxGc : CType := struct [u32, u32, u32, u32, u32, u8]

def demonxPixmap : CType := struct [u32, u32, u32, u16, u16, u8, u8]

def demonxPassiveGrab : CType := struct [u32, u32, u32, u32, u8, u8, u8, u8]

def windowLimit : ℕ := 16
def atomLimit : ℕ := 64
def propertyLimit : ℕ := 16
def passiveGrabLimit : ℕ := 8
def cursorLimit : ℕ := 4
def gcLimit : ℕ := 16
def pixmapLimit : ℕ := 8
def fallbackWidth : ℕ := 56
def fallbackHeight : ℕ := 56

/-- The table and global macros. -/
inductive ServerTable where
  | incomingWire | outgoingWire | windows | replyHandles | rootEventMask | rootRedirectClient
  | rootEventClient | atoms | properties | surfaceFactoryHandle | compositorHandle
  | compositorSerial | surfaceFailure | focusedWindow | pointerGrabClient | pointerGrabWindow
  | pointerGrabMask | keyboardGrabClient | keyboardGrabWindow | serverGrabClient | selectionAtom
  | selectionOwner | passiveGrabs | cursors | gcs | drawPixels | incoming | outgoing
  | assemblyActive | pixmaps
  deriving DecidableEq

namespace ServerTable

/-- Where each table is, what it holds and how many. The draw buffer is as long as the surface it
stands in for. -/
def layout : ServerTable → Table
  | incomingWire => ⟨0x330000, demonxTransport, 1⟩
  | outgoingWire => ⟨0x330040, demonxTransport, 1⟩
  | windows => ⟨0x330080, demonxWindow, windowLimit⟩
  | replyHandles => ⟨0x330400, u64, 8⟩
  | rootEventMask => ⟨0x330440, u32, 1⟩
  | rootRedirectClient => ⟨0x330444, u32, 1⟩
  | rootEventClient => ⟨0x330448, u32, 1⟩
  | atoms => ⟨0x330450, demonxAtom, atomLimit⟩
  | properties => ⟨0x330F00, demonxProperty, propertyLimit⟩
  | surfaceFactoryHandle => ⟨0x331200, u64, 1⟩
  | compositorHandle => ⟨0x331208, u64, 1⟩
  | compositorSerial => ⟨0x331210, u32, 1⟩
  | surfaceFailure => ⟨0x331214, u32, 1⟩
  | focusedWindow => ⟨0x331218, u32, 1⟩
  | pointerGrabClient => ⟨0x33121C, u32, 1⟩
  | pointerGrabWindow => ⟨0x331220, u32, 1⟩
  | pointerGrabMask => ⟨0x331224, u32, 1⟩
  | keyboardGrabClient => ⟨0x33122C, u32, 1⟩
  | keyboardGrabWindow => ⟨0x331230, u32, 1⟩
  | serverGrabClient => ⟨0x331234, u32, 1⟩
  | selectionAtom => ⟨0x331238, u32, 1⟩
  | selectionOwner => ⟨0x33123C, u32, 1⟩
  | passiveGrabs => ⟨0x331240, demonxPassiveGrab, passiveGrabLimit⟩
  | cursors => ⟨0x3312E0, demonxCursor, cursorLimit⟩
  | gcs => ⟨0x331300, demonxGc, gcLimit⟩
  | drawPixels => ⟨0x331600, u32, fallbackWidth * fallbackHeight⟩
  | incoming => ⟨0x334700, demonxMessage, 1⟩
  | outgoing => ⟨0x334820, demonxMessage, 1⟩
  | assemblyActive => ⟨0x334940, u32, 1⟩
  | pixmaps => ⟨0x334950, demonxPixmap, pixmapLimit⟩

end ServerTable

end DemonX

end DemonOS
