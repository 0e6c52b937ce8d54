import DemonOS.DemonX.Requests

/-!
# The resources of the DemonX server

The handlers of `parse_request` for atoms, properties, pixmaps and graphics contexts, and the
requests that draw.
-/

namespace DemonOS

namespace DemonX

def clientMessage : UInt8 := 33
def gcForeground : UInt32 := 4
def gcFont : UInt32 := 0x4000
def propertyDataBytes : ℕ := 24
def dynamicAtomBase : ℕ := 0x1000

/-- The length of data in a request or reply, whole words. -/
def padded (length : ℕ) : ℕ := (length + 3) / 4 * 4

namespace Server

/-! ## Atoms -/

/-- `atom_hash`, FNV-1a. -/
def atomHash (name : ℕ → UInt8) (length : ℕ) : UInt32 :=
  (List.range length).foldl (fun hash i => (hash ^^^ (name i).toUInt32) * 16777619) 2166136261

def setAtom (s : Server) (i : ℕ) (a : Atom) : Server :=
  { s with atoms := Function.update s.atoms i a }

def sameName (a b : ℕ → UInt8) (length : ℕ) : Bool := (List.range length).all fun k => a k == b k

/-- `intern_atom`: 0 where there is no atom of the name and none is made. -/
def makeAtom (s : Server) (name : ℕ → UInt8) (length : ℕ) (onlyIfExists : Bool) : UInt32 × Server :=
  let hash := atomHash name length
  let known := Table.firstIndex atomLimit fun i =>
    (s.atoms i).used && (s.atoms i).hash == hash && (s.atoms i).length.toNat == length
      && sameName (s.atoms i).name name length
  match known with
  | some i => ((s.atoms i).id.toUInt32, s)
  | none =>
    if onlyIfExists then (0, s)
    else match Table.firstIndex atomLimit fun i => !(s.atoms i).used with
      | none => (0, s)
      | some i =>
        let id := UInt16.ofNat (dynamicAtomBase + i)
        (id.toUInt32, s.setAtom i
          { hash := hash, id := id, length := UInt8.ofNat length, used := true
            name := copyBytes (s.atoms i).name 0 name length })

def internAtom (s : Server) : Bool × Server :=
  let length := s.field16 4
  let onlyIfExists := s.payload 1 != 0
  if length = 0 ∨ 32 < length ∨ s.incoming.payloadLength.toNat ≠ 8 + padded length.toNat then
    s.refuse 2 Opcode.internAtom length.toUInt32
  else
    let r := s.makeAtom (fun k => s.payload (8 + k)) length.toNat onlyIfExists
    if r.1 = 0 ∧ !onlyIfExists then r.2.refuse 11 Opcode.internAtom 0
    else (true, r.2.reply 32 (write32 (s.header 1 0) 8 r.1))

def getAtomName (s : Server) (id : UInt32) : Bool × Server :=
  match s.findAtom id with
  | none => s.refuse 5 Opcode.getAtomName id
  | some i =>
    let length := (s.atoms i).length.toNat
    if 16 < length then s.refuse 11 Opcode.getAtomName id
    else
      let p := write16 (write32 (s.header 1 0) 4 (UInt32.ofNat ((length + 3) / 4))) 8
        (UInt16.ofNat length)
      (true, s.reply (32 + padded length) (copyBytes p 32 (s.atoms i).name length))

/-! ## Properties -/

def itemBytes (format : UInt8) : UInt32 :=
  if format = 8 then 1 else if format = 16 then 2 else if format = 32 then 4 else 0

/-- The data of a property after it is replaced, prepended to or appended to, by the mode of the
request. -/
def changedData (p : Property) (mode : UInt8) (data : ℕ → UInt8) (length : ℕ) : ℕ → UInt8 :=
  if mode = 0 then copyBytes p.data 0 data length
  else if mode = 2 then copyBytes p.data p.dataLength.toNat data length
  else copyBytes (copyBytes p.data length p.data p.dataLength.toNat) 0 data length

def changeProperty (s : Server) (id : UInt32) : Bool × Server :=
  let atom := s.field32 8
  let type := s.field32 12
  let format := s.payload 16
  let mode := s.payload 1
  -- the product is taken modulo 2^32, as is the padding
  let length := s.field32 20 * itemBytes format
  if !s.validPropertyWindow id ∨ atom = 0 ∨ type = 0 ∨ itemBytes format = 0
      ∨ propertyDataBytes < length.toNat
      ∨ s.incoming.payloadLength.toNat ≠ 24 + padded length.toNat ∨ 2 < mode then
    s.refuse 2 Opcode.changeProperty atom
  else match s.propertySlot id atom with
    | none => s.refuse 11 Opcode.changeProperty atom
    | some (i, s) =>
      let p := s.properties i
      if mode ≠ 0 ∧ (p.type ≠ type ∨ p.format ≠ format
          ∨ propertyDataBytes < p.dataLength.toNat + length.toNat) then
        s.refuse 8 Opcode.changeProperty atom
      else
        let dataLength : UInt8 := if mode = 0 then length.toUInt8 else p.dataLength + length.toUInt8
        (s.setProperty i { p with
          type := type, format := format, dataLength := dataLength
          itemCount := dataLength.toUInt32 / itemBytes format
          data := changedData p mode (fun k => s.payload (24 + k)) length.toNat }).propertyNotify
            id atom 0

def dropProperty (s : Server) (window atom : UInt32) : Server :=
  match s.findProperty window atom with
  | none => s
  | some i => s.setProperty i { s.properties i with used := false }

def deleteProperty (s : Server) (id : UInt32) : Bool × Server :=
  (s.dropProperty id (s.field32 8)).propertyNotify id (s.field32 8) 1

/-- What `GetProperty` returns of a property from `offset` on, in a reply, and whether that is its
end. -/
def propertyReply (s : Server) (p : Property) (offset length : UInt32) : Bool × Server :=
  let rest := p.dataLength.toUInt32 - offset
  let returned := min (min rest length) 16
  let unit := p.format.toUInt32 / 8
  let header := write32 (write8 (s.header 1 0) 1 p.format) 4 ((returned + 3) / 4)
  let header := write32 (write32 header 8 p.type) 12 (rest - returned)
  let header := write32 header 16 (if unit = 0 then 0 else returned / unit)
  (rest - returned = 0, s.reply (32 + padded returned.toNat)
    (copyBytes header 32 (fun k => p.data (offset.toNat + k)) returned.toNat))

def getProperty (s : Server) (id : UInt32) : Bool × Server :=
  if !s.validPropertyWindow id then s.refuse 3 Opcode.getProperty id
  else match s.findProperty id (s.field32 8) with
    | none => (true, s.reply 32 (s.header 1 0))
    | some i =>
      let p := s.properties i
      if s.field32 12 ≠ 0 ∧ s.field32 12 ≠ p.type then (true, s.reply 32 (s.header 1 0))
      else
        let offset := s.field32 16 * 4
        if p.dataLength.toUInt32 < offset then s.refuse 2 Opcode.getProperty (s.field32 16)
        else
          let r := s.propertyReply p offset (s.field32 20 * 4)
          (true, if s.payload 1 ≠ 0 ∧ r.1 then r.2.setProperty i { p with used := false } else r.2)

def listProperties (s : Server) (id : UInt32) : Bool × Server :=
  if !s.validPropertyWindow id then s.refuse 3 Opcode.listProperties id
  else
    let listed := ((List.range propertyLimit).filter fun i =>
      (s.properties i).used ∧ (s.properties i).window = id).map fun i => (s.properties i).atom
    if 4 < listed.length then s.refuse 11 Opcode.listProperties id
    else
      let p := write16 (write32 (s.header 1 0) 4 (UInt32.ofNat listed.length)) 8
        (UInt16.ofNat listed.length)
      (true, s.reply (32 + listed.length * 4) (writeIds p listed))

/-- `SendEvent`: a client message goes to the owner of the window, marked as sent. -/
def sendEvent (s : Server) (id : UInt32) : Bool × Server :=
  let type := s.payload 12 &&& 0x7F
  match s.findWindow id with
  | none => s.refuse 3 Opcode.sendEvent id
  | some i =>
    if type ≠ clientMessage then s.refuse 2 Opcode.sendEvent id
    else (true, s.event (s.window i).ownerClient (write16 (write8
      (copyBytes (fun _ => 0) 0 (fun k => s.payload (12 + k)) 32) 0 (type ||| 0x80)) 2
      s.incoming.sequence.toUInt16))

/-! ## Pixmaps and graphics contexts -/

def refusePixmap (s : Server) (i : ℕ) (id : UInt32) : Bool × Server :=
  (s.setPixmap i { s.pixmaps i with used := false }).refuse 11 Opcode.createPixmap id

/-- The surface of the pixmap in a slot. -/
def makePixmap (s : Server) (sys : Answers) (i : ℕ) (id : UInt32) (width height : UInt16)
    (depth : UInt8) : Bool × Server :=
  let ensured := s.ensureDesktopHandles sys
  let s := ensured.2
  if !ensured.1 then s.refusePixmap i id
  else
    let created := s.call sys (.surfaceCreate s.surfaceFactoryHandle width.toNat height.toNat)
    let s := created.2
    if created.1 = failure ∨ 0xFFFFFFFF < created.1 then s.refusePixmap i id
    else (false, s.setPixmap i { s.pixmaps i with
      surfaceHandle := created.1.toUInt32, width := width, height := height, depth := depth })

def createPixmap (s : Server) (sys : Answers) (id : UInt32) : Bool × Server :=
  let drawable := s.field32 8
  let width := s.field16 12
  let height := s.field16 14
  let depth := s.payload 1
  if (drawable ≠ rootWindow ∧ !s.validDrawable drawable) ∨ width = 0 ∨ height = 0
      ∨ windowMaxWidth < width.toNat ∨ windowMaxHeight < height.toNat
      ∨ (depth ≠ 1 ∧ depth ≠ 24 ∧ depth ≠ 32) then s.refuse 2 Opcode.createPixmap id
  else match s.allocatePixmap id s.incoming.clientId with
    | none => s.refuse 11 Opcode.createPixmap id
    | some (i, s) => s.makePixmap sys i id width height depth

def freePixmap (s : Server) (sys : Answers) (id : UInt32) : Bool × Server :=
  match s.findPixmap id with
  | none => s.refuse 4 Opcode.freePixmap id
  | some i =>
    if (s.pixmaps i).ownerClient ≠ s.incoming.clientId then s.refuse 4 Opcode.freePixmap id
    else (false, (s.call' sys (.handleClose (s.pixmaps i).surfaceHandle.toUInt64)).setPixmap i
      { s.pixmaps i with used := false })

/-- A graphics context with the values the mask of a request gives, one after the other from byte 16
on. -/
def requestedGc (s : Server) (gc : Gc) (drawable mask : UInt32) : Gc :=
  let foreground := selects mask gcForeground
  { gc with
    drawable := drawable
    foreground := if foreground then s.field32 16 else gc.foreground
    font := if selects mask gcFont then s.field32 (if foreground then 20 else 16) else gc.font }

def createGc (s : Server) (id : UInt32) : Bool × Server :=
  let drawable := s.field32 8
  let mask := s.field32 12
  let values := (selects mask gcForeground).toNat + (selects mask gcFont).toNat
  if mask &&& ~~~(gcForeground ||| gcFont) ≠ 0
      ∨ s.incoming.payloadLength.toNat ≠ 16 + values * 4 ∨ !s.validDrawable drawable then
    s.refuse 2 Opcode.createGc id
  else match s.allocateGc id s.incoming.clientId with
    | none => s.refuse 14 Opcode.createGc id
    | some (i, s) =>
      let gc := s.requestedGc (s.gcs i) drawable mask
      if selects mask gcFont ∧ gc.font ≠ 1 then
        (s.setGc i { gc with used := false }).refuse 7 Opcode.createGc gc.font
      else (false, s.setGc i gc)

def changeGc (s : Server) (id : UInt32) : Bool × Server :=
  let mask := s.field32 8
  let value := s.field32 12
  match s.findGc id with
  | none => s.refuse 13 Opcode.changeGc id
  | some i =>
    if (s.gcs i).ownerClient ≠ s.incoming.clientId ∨ (mask ≠ gcForeground ∧ mask ≠ gcFont)
        ∨ s.incoming.payloadLength ≠ 16 then s.refuse 2 Opcode.changeGc id
    else if mask = gcForeground then (false, s.setGc i { s.gcs i with foreground := value })
    else if value = 1 then (false, s.setGc i { s.gcs i with font := 1 })
    else s.refuse 7 Opcode.changeGc value

def freeGc (s : Server) (id : UInt32) : Bool × Server :=
  match s.findGc id with
  | none => s.refuse 13 Opcode.freeGc id
  | some i =>
    if (s.gcs i).ownerClient ≠ s.incoming.clientId then s.refuse 13 Opcode.freeGc id
    else (false, s.setGc i { s.gcs i with used := false })

def drawsWith (s : Server) (gc : ℕ) (drawable : UInt32) : Bool :=
  (s.gcs gc).ownerClient = s.incoming.clientId ∧ (s.gcs gc).drawable = drawable

/-! ## Drawing -/

/-- The rectangles of `PolyFillRectangle`, as far as the first that fails. -/
def fillRectangles (sys : Answers) (fill : UInt16 → UInt16 → UInt16 → UInt16 → Server → ℤ × Server) :
    List ℕ → Server → ℤ × Server
  | [], s => (0, s)
  | index :: rest, s =>
    let a := 12 + index * 8
    let r := fill (s.field16 a) (s.field16 (a + 2)) (s.field16 (a + 4)) (s.field16 (a + 6)) s
    if r.1 < 0 then r else fillRectangles sys fill rest r.2

/-- The error of a rectangle that failed. -/
def fillError (s : Server) (drawn : ℤ) : UInt8 :=
  if drawn = -1 then (10 + s.surfaceFailure).toUInt8 else if drawn = -2 then 17 else 8

def polyFillRectangle (s : Server) (sys : Answers) (id : UInt32) : Bool × Server :=
  let refusal : UInt8 := if s.validDrawable id then 13 else 9
  match s.findGc (s.field32 8) with
  | none => s.refuse refusal Opcode.polyFillRectangle id
  | some gc =>
    let count := (s.incoming.payloadLength.toNat - 12) / 8
    let foreground := (s.gcs gc).foreground
    let drawn : Option (ℤ × Server) := match s.findWindow id, s.findPixmap id with
      | some i, _ => some (fillRectangles sys (fun x y width height s =>
          s.fillRectangle sys i foreground x y width height) (List.range count) s)
      | none, some p => some (fillRectangles sys (fun x y width height s =>
          s.fillPixmap sys p foreground x y width height) (List.range count) s)
      | none, none => none
    if !s.drawsWith gc id then s.refuse refusal Opcode.polyFillRectangle id
    else match drawn with
      | none => s.refuse refusal Opcode.polyFillRectangle id
      | some (result, s) =>
        if result < 0 then s.refuse (s.fillError result) Opcode.polyFillRectangle id else (false, s)

def putImageRequest (s : Server) (sys : Answers) (id : UInt32) : Bool × Server :=
  let width := s.field16 12
  let height := s.field16 14
  match s.findGc (s.field32 8) with
  | none => s.refuse 13 Opcode.putImage id
  | some gc =>
    if s.payload 1 ≠ 2 ∨ s.payload 20 ≠ 0 ∨ s.payload 21 ≠ 32 ∨ width = 0 ∨ height = 0
        ∨ (messageBytes - 24) / 4 < width.toNat * height.toNat
        ∨ s.incoming.payloadLength.toNat - 24 ≠ width.toNat * height.toNat * 4
        ∨ !s.drawsWith gc id ∨ !s.validDrawable id then s.refuse 2 Opcode.putImage id
    else
      let r := s.putImage sys id (s.field16 16) (s.field16 18) width height fun k =>
        s.payload (24 + k)
      if r.1 < 0 then r.2.refuse (if r.1 = -4 then 9 else 11) Opcode.putImage id else (false, r.2)

def copyAreaRequest (s : Server) (sys : Answers) (source : UInt32) : Bool × Server :=
  let destination := s.field32 8
  if !s.validDrawable source then s.refuse 9 Opcode.copyArea source
  else if !s.validDrawable destination then s.refuse 9 Opcode.copyArea destination
  else if !(s.findGc (s.field32 12)).any fun gc => s.drawsWith gc destination then
    s.refuse 13 Opcode.copyArea (s.field32 12)
  else
    let r := s.copyArea sys source destination (s.field16 16) (s.field16 18) (s.field16 20)
      (s.field16 22) (s.field16 24) (s.field16 26)
    if r.1 < 0 then r.2.refuse (if r.1 = -1 then 9 else 11) Opcode.copyArea destination
    else (false, r.2)

/-- The refusal of `GetImage`. -/
def refuseImage (s : Server) (id : UInt32) : Bool × Server :=
  s.refuse (if s.validDrawable id then 2 else 9) Opcode.getImage id

def getImage (s : Server) (sys : Answers) (id : UInt32) : Bool × Server :=
  let x := s.field16 8
  let y := s.field16 10
  let width := (s.field16 12).toNat
  let height := (s.field16 14).toNat
  let planes := s.field32 16
  if s.payload 1 ≠ 2 ∨ width = 0 ∨ height = 0 ∨ 56 < width * height ∨ int16 x < 0 ∨ int16 y < 0 then
    s.refuseImage id
  else match s.drawableSurface sys id with
    | (none, s) => s.refuseImage id
    | (some d, s) =>
      if d.width < x.toNat + width ∨ d.height < y.toNat + height then s.refuseImage id
      else
        let mapped := s.call sys (.surfaceMap d.surface)
        let s := mapped.2
        if mapped.1 = failure then s.refuse 11 Opcode.getImage id
        else
          let read := s.readPixels sys d.surface ((List.range (width * height)).map fun k =>
            (y.toNat + k / width) * d.width + x.toNat + k % width)
          let s := read.2.call' sys (.surfaceUnmap d.surface)
          (true, s.reply (32 + width * height * 4)
            (writeIds (s.header 1 32) (read.1.map (· &&& planes))))

/-- `PolyText8` and `PolyText8Scaled`, whose text starts at byte `start`. -/
def polyText (s : Server) (opcode : UInt8) (id : UInt32) (start : ℕ)
    (draw : UInt32 → UInt16 → UInt16 → (ℕ → UInt8) → UInt8 → ℤ × Server) : Bool × Server :=
  let length := s.payload 16
  match s.findGc (s.field32 8) with
  | none => s.refuse 13 opcode id
  | some gc =>
    if s.incoming.payloadLength.toNat ≠ padded (start + length.toNat) ∨ !s.drawsWith gc id
        ∨ !s.validDrawable id then s.refuse 2 opcode id
    else
      let r := draw (s.gcs gc).foreground (s.field16 12) (s.field16 14)
        (fun k => s.payload (start + k)) length
      if r.1 < 0 then r.2.refuse 11 opcode id else (false, r.2)

def polyText8 (s : Server) (sys : Answers) (id : UInt32) : Bool × Server :=
  s.polyText Opcode.polyText8 id 17 fun foreground x y text length =>
    s.drawText sys id foreground x y text length

def polyText8Scaled (s : Server) (sys : Answers) (id : UInt32) : Bool × Server :=
  s.polyText Opcode.polyText8Scaled id 18 fun foreground x y text length =>
    s.drawTextScaled sys id foreground x y text length (s.payload 17)

def clearArea (s : Server) (sys : Answers) (i : ℕ) (id : UInt32) : Bool × Server :=
  let r := s.clearBackground sys i (s.field16 8) (s.field16 10) (s.field16 12) (s.field16 14)
  if r.1 < 0 then r.2.refuse 11 Opcode.clearArea id else (false, r.2)

end Server

end DemonX

end DemonOS
