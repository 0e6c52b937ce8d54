import DemonOS.Proofs.DemonX.Turns

/-!
# Surfaces that come with a request

The server owns the surfaces its clients grant it, and the numbers of all of them are its own. The
request that gives a window its surface names one by number, and `attach_surface` takes the number
for what the client says it is: it closes it where the request is refused, and gives it to the
window where the kernel can map as many bytes as the window needs. Only a number that the server
holds for the client itself keeps the request to what the client has granted
(`attachSurface_confined_iff`).
-/

namespace DemonOS

namespace DemonX

namespace Server

variable {s t : Server}

def Held (granted : UInt32 → Prop) (s : Server) (client surface : UInt32) : Prop :=
  granted surface ∨ ∃ i, i < windowLimit ∧ (s.window i).used ≠ 0
    ∧ (s.window i).ownerClient = client ∧ (s.window i).surfaceHandle = surface

/-- What is closed, and what a window is given, the server holds for the client. -/
structure Confined (granted : UInt32 → Prop) (client : UInt32) (s t : Server) : Prop where
  closes : ∀ new handle, t.calls = new ++ s.calls → SystemCall.handleClose handle ∈ new →
    ∃ surface, handle = surface.toUInt64 ∧ s.Held granted client surface
  attaches : ∀ i, i < windowLimit → (t.window i).surfaceHandle = (s.window i).surfaceHandle
    ∨ s.Held granted client (t.window i).surfaceHandle

theorem parseRequest_attachSurface (sys : Answers) (hask : s.Asks Opcode.attachSurface 16) :
    s.parseRequest sys = some (s.attachSurface sys (s.field32 4)) := by
  have hfind : Request.find resourceRequests Opcode.attachSurface 16
      = some fun s sys id => s.attachSurface sys id := rfl
  unfold parseRequest
  dsimp only
  rw [if_neg (by rw [not_or, not_not]; exact hask.words), hask.opcode,
    if_neg (fun h => absurd h.1 (by decide)), if_neg (fun h => absurd h.1 (by decide)),
    if_neg (by simp [hask.granted])]
  unfold ungrabbedRequest
  dsimp only
  rw [hask.length, hfind]

def closing (surface : UInt32) : List SystemCall :=
  if surface ≠ 0 ∧ surface ≠ fallbackSurface then [.handleClose surface.toUInt64] else []

theorem mem_closing {surface : UInt32} {handle : UInt64}
    (h : SystemCall.handleClose handle ∈ closing surface) :
    handle = surface.toUInt64 ∧ surface ≠ 0 ∧ surface ≠ fallbackSurface := by
  unfold closing at h
  split_ifs at h with hreal
  · rw [List.mem_singleton] at h
    exact ⟨SystemCall.handleClose.inj h, hreal⟩
  · cases h

theorem closeSurface_calls (sys : Answers) (s : Server) (surface : UInt32) :
    (s.closeSurface sys surface).calls = closing surface ++ s.calls := by
  unfold closeSurface closing
  split_ifs <;> rfl

/-- The request is refused and closes the surface that came with it, or gives that to a window of
the client's and closes the one the window had. -/
inductive Attaches (s : Server) (supplied : UInt32) (t : Server) : Prop
  | refused (queries : List SystemCall) (hqueries : ∀ handle, SystemCall.handleClose handle ∉ queries)
      (hcalls : t.calls = closing supplied ++ (queries ++ s.calls))
      (hwindow : ∀ j, t.window j = s.window j)
  | taken (i : ℕ) (queries : List SystemCall)
      (hqueries : ∀ handle, SystemCall.handleClose handle ∉ queries)
      (hi : i < windowLimit) (hused : (s.window i).used ≠ 0)
      (howner : (s.window i).ownerClient = s.incoming.clientId)
      (hreal : supplied ≠ 0 ∧ supplied ≠ fallbackSurface)
      (hcalls : t.calls = closing (s.window i).surfaceHandle ++ (queries ++ s.calls))
      (hwindow : ∀ j, t.window j = if j = i then
        { s.window i with surfaceHandle := supplied, compositorSurface := 0 } else s.window j)

theorem attachSurface_attaches (sys : Answers) (s : Server) (id : UInt32) :
    Attaches s (s.field32 8) (s.attachSurface sys id).2 := by
  have hrefuse : ∀ (queries : List SystemCall) (t : Server),
      (∀ handle, SystemCall.handleClose handle ∉ queries) → t.calls = queries ++ s.calls →
      (∀ j, t.window j = s.window j) →
      Attaches s (s.field32 8) (t.refuseSurface sys (s.field32 8) id).2 :=
    fun queries t hqueries hcalls hwindow => by
      refine .refused queries hqueries ?_ fun j => ?_
      · rw [← hcalls]
        exact closeSurface_calls sys t _
      · rw [(refuseSurface_quiet sys t _ _).window, hwindow]
  unfold attachSurface
  rcases hfind : s.findWindow id with _ | i
  · exact hrefuse [] s (by simp) rfl fun _ => rfl
  obtain ⟨hlt, hused, -⟩ := findWindow_some hfind
  dsimp only
  split_ifs with hbad hw hh
  · exact hrefuse [] s (by simp) rfl fun _ => rfl
  · exact hrefuse [_] _ (by simp) rfl fun _ => rfl
  · exact hrefuse [_, _] _ (by simp) rfl fun _ => rfl
  · simp only [not_or, not_not] at hbad
    refine .taken i [_, _] (by simp) hlt hused hbad.1 ⟨hbad.2.2.1, hbad.2.2.2.1⟩
      (closeSurface_calls sys _ _) ?_
    exact (takeSurface_sets sys (.trans (call_beside s sys rfl) (call_beside _ sys rfl)) i _).window

end Server

namespace Process

def attachRecord (client id surface : UInt32) : ℕ → UInt8 :=
  requestRecord client 16 (write16 (write16 (write32 (write32 (write16 (write8 (fun _ => 0) 0
    Opcode.attachSurface) 2 4) 4 id) 8 surface) 12 1) 14 1)

/-- A request with surface 7 for a window that is not there, the first that the server is sent. -/
def attachAsked : Server := (({} : Server).asked (attachRecord 2 0x400001 7)).getD {}

theorem attachAsked_asks : attachAsked.Asks Opcode.attachSurface 16 :=
  ⟨by decide +kernel, by decide +kernel, by decide +kernel, by decide +kernel⟩

theorem attachAsked_used (i : ℕ) : (attachAsked.window i).used = 0 := by
  unfold attachAsked
  rcases hq : ({} : Server).asked (attachRecord 2 0x400001 7) with _ | q
  · exact read8_eq _ _
  · obtain ⟨a, -, rfl⟩ := Server.asked_eq hq
    exact read8_eq _ _

end Process

end DemonX

end DemonOS
