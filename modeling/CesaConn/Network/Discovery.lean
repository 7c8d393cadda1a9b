import CesaConn.Format.Text
import CesaConn.Peers.Address
import CesaConn.Program.Collect

/-! Announcements on the local network, and what one search makes of them.

An announcement carries nothing but the id of a running instance. A search keeps
the first id it hears from an address; where a packet came from is only a hint.
-/

set_option autoImplicit false

namespace CesaConn

open Format Program

namespace Discovery

def magic : Bytes := [67, 69, 83, 65, 67, 79, 78, 78] -- CESACONN
def version : UInt8 := 1
def announcementLen : Nat := 8 + 1 + 16

def maxFoundDevices : Nat := 16

structure InstanceId where
  bytes : Block 16
  deriving DecidableEq

namespace InstanceId

/-- The derived order of the array: bytewise, from the front. -/
instance : LT InstanceId where
  lt first second := first.bytes.toList < second.bytes.toList

instance (first second : InstanceId) : Decidable (first < second) :=
  inferInstanceAs (Decidable (first.bytes.toList < second.bytes.toList))

theorem lt_asymm {first second : InstanceId} (lower : first < second) : ¬ second < first :=
  List.lt_asymm lower

instance : Std.Trichotomous fun first second : UInt8 => first < second where
  trichotomous _ _ lower upper := UInt8.le_antisymm (UInt8.not_lt.mp upper) (UInt8.not_lt.mp lower)

theorem lt_or_lt {first second : InstanceId} (different : first ≠ second) : first < second ∨ second < first := by
  by_contra neither
  rw [not_or] at neither
  have same := List.le_antisymm (List.not_lt.mp neither.2) (List.not_lt.mp neither.1)
  cases first
  cases second
  exact different (congrArg mk (List.Vector.toList_injective same))

end InstanceId

def announcement (id : InstanceId) : Bytes := magic ++ [version] ++ id.bytes.toList

/-- Anything that is not exactly an announcement is `none`. -/
def parseAnnouncement (packet : Bytes) : Option InstanceId := do
  let packet ← toBlock announcementLen packet
  let (front, rest) ← splitFirstChunk 8 packet.toList
  match rest with
  | [] => none
  | number :: id =>
      if front.toList ≠ magic ∨ number ≠ version then none
      else (toBlock 16 id).map InstanceId.mk

/-- The sender of an announcement, and the instance it named. -/
abbrev Hint := SocketAddr × InstanceId

def Hint.ip (hint : Hint) : IpAddr := hint.1.ip

/-- What a search of the instance `own` has found after one more packet: its own
announcements and junk are skipped, and an address counts once. -/
def hear (own : InstanceId) (found : List Hint) (addr : SocketAddr) (packet : Bytes) : List Hint :=
  match parseAnnouncement packet with
  | none => found
  | some id => if id = own then found else collect Hint.ip maxFoundDevices found (addr, id)

end Discovery

end CesaConn
