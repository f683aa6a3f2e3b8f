import WappPlanner.Lib.Dict
import WappPlanner.Domain.Models

/-! # The client registry

`ingestion/client_registry.py`: a phone number resolves to the client that lists it, any other number
to itself. -/

namespace WappPlanner.Ingestion

open WappPlanner.Domain.Models WappPlanner.Lib

/-- The clients by phone number. -/
structure ClientRegistry where
  byPhone : Dict String Client

namespace ClientRegistry

/-- The registry of a list of clients; a number that several clients list is the last one's. -/
def ofClients (clients : List Client) : ClientRegistry where
  byPhone := clients.foldl (fun d client =>
    client.phoneNumbers.foldl (fun d phone => d.set phone client) d) Dict.empty

/-- Client id, client name and whether the client is known, for the phone number of a sender. -/
def resolve (registry : ClientRegistry) (phone : String) : String × String × Bool :=
  match registry.byPhone.get phone with
  | some client => (client.id, client.name, true)
  | none => (phone, phone, false)

end ClientRegistry

end WappPlanner.Ingestion
