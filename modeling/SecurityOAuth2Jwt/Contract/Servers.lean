import SecurityOAuth2Jwt.AuthorizationServer.OAuth2Configuration
import SecurityOAuth2Jwt.Common.Machine
import SecurityOAuth2Jwt.ResourceServer.ResourceServerConfiguration

/-!
# The two servers together

The authorization server and the resource server share a key pair and a clock, and nothing else: the
resource server never sees the table of users. The state holds what the authorization server stores
and every map of claims that it has signed. Requests to the two servers, changes of the tables and
the passing of time come in any order. Requests to the authorization endpoint are left out, so there
are no authorization codes to redeem.
-/

namespace Contract

open Java Spring AuthorizationServer ResourceServer

structure ServersState where
  server : ServerState
  settings : ClientSettingsTable
  /-- Milliseconds. -/
  clock : Int64
  /-- The claims that have been signed, oldest first. -/
  signed : List ClaimsMap

inductive ServersEvent where
  | changeUsers (users : UserTable)
  | changeClients (clients : ClientTable) (settings : ClientSettingsTable)
  | leaveContext (context : SecurityContext)
  | pass (time : Int64)
  | requestToken (requestParameters : RequestParameters) (authenticatedClient : ClientDetails)
      (ids : TokenIds)
  | requestResource (bearer : Option String) (endpoint : ResourceController.Endpoint)

inductive ServersOutput where
  | silent
  | tokens (outcome : Result IssuedTokens)
  | reply (reply : Reply)

/-- The two servers, and the value of the token with given claims: `JwtHelper.encode` with the
private key. -/
structure Servers where
  authorizationServer : OAuth2Configuration
  resourceServer : ResourceServerConfiguration
  encode : ClaimsMap → String

namespace Servers

variable (Y : Servers)

/-- Verify with the public key: only values that were signed pass. -/
def decode (s : ServersState) (value : String) : Option ClaimsMap :=
  s.signed.find? fun m => decide (Y.encode m = value)

/-- The claims signed for the outcome of a token request. -/
def signedFor : Result IssuedTokens → List ClaimsMap
  | .ok tokens => tokens.access :: tokens.refresh.toList
  | .error _ => []

/-- A token request in a state: its outcome, and the context after it. -/
def postAccessToken (s : ServersState) (requestParameters : RequestParameters)
    (client : ClientDetails) (ids : TokenIds) : Result IssuedTokens × SecurityContext :=
  Y.authorizationServer.postAccessToken (Y.decode s) ∅ s.server s.settings s.clock ids
    requestParameters client

/-- A resource request in a state. -/
def reply (s : ServersState) (bearer : Option String) (endpoint : ResourceController.Endpoint) :
    Reply :=
  Y.resourceServer.request (Y.decode s) s.clock bearer endpoint

def machine : Machine ServersState ServersEvent ServersOutput where
  step s
    | .changeUsers users => ({ s with server := { s.server with users } }, .silent)
    | .changeClients clients settings =>
      ({ s with server := { s.server with clients }, settings }, .silent)
    | .leaveContext context => ({ s with server := { s.server with context } }, .silent)
    | .pass time => ({ s with clock := max s.clock time }, .silent)
    | .requestToken requestParameters client ids =>
      let (outcome, context) := Y.postAccessToken s requestParameters client ids
      ({ s with server := { s.server with context }, signed := s.signed ++ signedFor outcome },
        .tokens outcome)
    | .requestResource bearer endpoint => (s, .reply (Y.reply s bearer endpoint))

end Servers

end Contract
