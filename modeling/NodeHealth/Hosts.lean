import NodeHealth.Text.Address
import NodeHealth.Text.Ascii
import NodeHealth.Pod.Identities

/-!
# Who the node is

The identities of a node are its host name, what the hosts file says of that name, the addresses
the name resolves to and the names these addresses map back to, and whatever identities are given
besides.
-/

namespace NodeHealth

namespace Hosts

/-- A line of the hosts file: an address and names for it. -/
structure Line where
  address : String
  names : List String
  deriving DecidableEq, Repr

/-- The part of a line before the first `#`. -/
def uncommented (line : List Char) : List Char := line.takeWhile (· != '#')

/-- Reads a line; one that does not begin with an address says nothing. -/
def Line.ofText? (line : String) : Option Line :=
  match Text.words (String.ofList (uncommented line.toList)) with
  | address :: names => if Address.isAddress address then some ⟨address, names⟩ else none
  | [] => none

/-- Whether a line speaks of a name: of an address letter for letter, of a host name without
regard to case. -/
def Line.mentions (l : Line) (name : String) : Bool :=
  l.address == name || l.names.any (Text.sameFolded · name)

/-- The addresses and names on the lines of a hosts file that speak of `name`. -/
def aliases (hosts : String) (name : String) : List String :=
  (((Text.lines hosts).filterMap Line.ofText?).filter (·.mentions name)).flatMap
    fun l => l.address :: l.names

end Hosts

/-- The answers of the name service. -/
structure NameService where
  /-- The addresses of a host name, in their usual spelling. -/
  addresses : String → List String
  /-- The canonical name of an address. -/
  nameOf : String → Option String

namespace NameService

/-- A name service that knows no name. -/
def silent : NameService := ⟨fun _ => [], fun _ => none⟩

/-- The names that addresses map back to; an answer that is itself an address is none. -/
def namesOf (service : NameService) (addresses : List String) : List String :=
  (addresses.filterMap service.nameOf).filter (!Address.isAddress ·)

end NameService

namespace Identities

/-- The identities of the host `name`. -/
def ofHost (service : NameService) (hosts : Option String) (name : String) : Identities :=
  let addresses := service.addresses name
  (((empty.push name).extend (Hosts.aliases (hosts.getD "") name)).extend addresses).extend
    (service.namesOf addresses)

/-- The identities of a node: those of its host name, unless that is blank or not known, and the
given ones after them. The hosts file may be missing. -/
def discover (service : NameService) (hosts : Option String) (hostname : Option String)
    (extra : List String) : Identities :=
  let known := match hostname with
    | some name => if (Text.trim name).isEmpty then empty else ofHost service hosts name
    | none => empty
  known.extend extra

end Identities

end NodeHealth
