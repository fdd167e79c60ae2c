import ScratchPage.Block.Basic
import ScratchPage.Code.Statement

/-!
# Scripts

A script is a chain of statements with the event that starts it. Scripts are registered with the page
as asynchronous functions; a procedure is registered under its code together with its arguments.
-/

namespace ScratchPage
set_option autoImplicit false

/-- A script of a target. -/
inductive Script where
  | whenFlagClicked (body : List Statement)
  | whenReceived (message : String) (body : List Statement)
  | whenCloned (body : List Statement)
  | procedure (signature : Signature) (body : List Statement)

namespace Script

/-- An array of texts. -/
def textArray (texts : List String) : Code := Code.data (.array (texts.map Json.string))

/-- The lines of a script. -/
def lines : Script → List Line
  | .whenFlagClicked body =>
    [.opening "onStartListeners.push((async function() \x7b", .opening "if (!isClone) \x7b"] ++
    Statement.chainLines body ++
    [.plain screenRefresh, .closing "\x7d", .closing "\x7d).bind(this));"]
  | .whenReceived message body =>
    [.opening "broadcastListeners.push(\x7b", .plain ("\"name\": " ++ Code.quoted message ++ ","),
     .opening "\"callback\": (async function() \x7b"] ++
    Statement.chainLines body ++
    [.plain screenRefresh, .closing "\x7d).bind(this)", .closing "\x7d);"]
  | .whenCloned body =>
    [.opening "this.onStartAsClone.push((async function() \x7b"] ++
    Statement.chainLines body ++
    [.plain screenRefresh, .closing "\x7d).bind(this));"]
  | .procedure signature body =>
    [.opening ("this.definedProcedures.set(" ++ Code.quoted signature.code ++ ", \x7b"),
     .opening "method: (async function(argsMethodArgs, argsArgMapping) \x7b"] ++
    Statement.chainLines body ++
    [.closing "\x7d).bind(this),",
     .plain ("argumentids: " ++ textArray signature.argumentIds ++ ","),
     .plain ("argumentnames: " ++ textArray signature.argumentNames ++ ","),
     .closing "\x7d);"]

end Script

end ScratchPage
