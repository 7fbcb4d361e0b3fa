import UpdateRelay.Session.Hub

/-!
# The service

A service has one session by lines for each connection that it accepted, all over one broker. When
it is told to stop it accepts no more connections, the lifetime of every session is cancelled, and
it goes on serving until all of them have ended.
-/

namespace UpdateRelay

/-- The sessions of a service, whether clients can reach its address, and whether it was told to
stop. -/
structure Service where
  hub : Hub
  reachable : Bool
  stopping : Bool

namespace Service

def start (capacity : Nat) (reachable : Bool) : Service where
  hub := .start (.inProcess (.ofCapacity capacity))
  reachable := reachable
  stopping := false

/-- Whether a client that connects now is accepted. -/
def accepts (service : Service) : Bool := service.reachable && !service.stopping

/-- The service after a client connected whose connection holds some number of bytes a way. -/
def connect (service : Service) (buffer : Nat) : Service :=
  if service.accepts then
    { service with
      hub := service.hub.addClient (.start .unlimited defaultRequestTime (.ofLines buffer)) }
  else service

def stop (service : Service) : Service :=
  { service with
    stopping := true
    hub := (List.range service.hub.clients.length).foldl Hub.cancel service.hub }

/-- Whether the service has not come to its end. -/
def isServing (service : Service) : Bool :=
  !service.stopping || service.hub.clients.any fun client => client.session.result?.isNone

def settle (service : Service) : Service := { service with hub := service.hub.settle }

end Service

end UpdateRelay
