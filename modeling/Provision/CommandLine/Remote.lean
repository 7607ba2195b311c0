import Provision.Store.Fetch
import Provision.Web.Address

/-!
# Remote sources

A repository or a payload may be named by an address on the web.  No transfer is made here:
what is no address, or must be secure and is not, is refused as such, and any other address
cannot be reached.
-/

namespace Provision.CommandLine

/-- Why nothing is transferred from an address. -/
def refusal (httpsOnly : Bool) : Except Web.AddressError Web.Address → String
  | .error cause => s!"builder error: {cause.message}"
  | .ok address =>
    let url := address.requested.text
    if httpsOnly ∧ ¬ address.secure then
      s!"builder error for url ({url}): URL scheme is not allowed"
    else s!"error sending request for url ({url})"

/-- Fetches payloads of the local file system, and refuses remote ones. -/
def fetchAny (httpsOnly : Bool) : Fetch := fun url fs =>
  match Web.Address.ofString? url with
  | some address => ⟨[], .error (.transfer (refusal httpsOnly address))⟩
  | none => fetchLocal .usual url fs

end Provision.CommandLine
