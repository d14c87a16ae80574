/-
Module: Priestly.Cli.Connect
Layer: Cli
Purpose: `_connect` of `cli/client.py` behind the opening handshake: HELLO, the choice of the password, and
  the authentication where the node asks for one. What it prints is left out.
Imports: Priestly.Cli.ChatClient, Priestly.Config.Load
Trusted boundary: none
Main exports: clientSecret, Connected, connect
-/
import Priestly.Cli.ChatClient
import Priestly.Config.Load

namespace Priestly

open ByteCodec Interaction

/-- `args.password or config_module.password_from_env()`; an empty text is no password. -/
def clientSecret (argument : Option String) (env : List (String × String)) : Option String :=
  (Config.truthy argument).or (Config.passwordFromEnv env)

/-- How `_connect` ends when no exception leaves it: with a client, or by `SystemExit`. -/
inductive Connected where
  | client (client : ChatClient)
  | systemExit (status : Nat)
deriving DecidableEq, Repr

section Connect

variable (rt : Runtime) (grp : ModpGroup) (a : Nat)

/-- The authentication under its `except` clause. -/
def authenticateClient (client : ChatClient) (password : String) : Driver Connected :=
  Program.handle (do return .client (← client.authenticate rt grp a (utf8Encode password))) fun
    | .covenantError _ => return .systemExit 2
    | exn => throw exn

/-- `_connect` behind `hello`. -/
def connectOnAck (secret : Option String) (client : ChatClient) : Driver Connected :=
  if client.passwordRequired then
    match secret with
    | none => return .systemExit 2
    | some password => authenticateClient rt grp a client password
  else return .client client

/-- `_connect` over the `WebSocket`, with the exponent `a` should the handshake need one. -/
def connect (timestamp : String) (secret : Option String) : Driver Connected := do
  connectOnAck rt grp a secret (← ChatClient.hello rt .new timestamp 42 7)

end Connect

end Priestly
