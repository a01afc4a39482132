/-
**The SMTP session** (`mailbox/smtp.rs`).

A session reads the client's bytes line by line. A line is a command, or, after a `DATA` command
that was accepted, a part of the message up to the lone dot. The end of the list is the end of the
connection.

What a delivery answers is an argument (`store`); a write to the client that fails ends the session
early and is left out.

* `commandOf` — how a line is understood.
* `handleSession` — the loop, with the loop of `read_data` as its second mode.
-/

import CloudTwin.Lib.Utf8

namespace CloudTwin.Mailbox

open Lib Lib.Text

/-! ### Lines -/

/-- `read_until(b'\n')`, until the connection is closed. -/
def linesOf : List UInt8 → List (List UInt8)
  | [] => []
  | byte :: rest =>
    if byte = 10 then [byte] :: linesOf rest
    else match linesOf rest with
      | [] => [[byte]]
      | first :: others => (byte :: first) :: others

/-- Hard cap on a single command line, to bound memory per connection. -/
def maxLine : Nat := 8 * 1024

/-- Hard cap on a single message body: SES's 40 MB receiving limit. -/
def maxMessage : Nat := 40 * 1024 * 1024

/-- A command line: capped, decoded, and without the blanks at its end. -/
def commandLine (line : List UInt8) : String :=
  trimEnd (fromUtf8Lossy (line.take maxLine))

/-- What follows the first `:`, trimmed. -/
def afterColon (text : String) : String :=
  match find ':' text.toList with
  | some index => trim (String.ofList (text.toList.drop (index + 1)))
  | none => ""

/-- Extract the address inside `<...>` from a `MAIL FROM`/`RCPT TO` command, falling back to
whatever follows the first `:`. -/
def extractAngle (text : String) : String :=
  match find '<' text.toList, rfind '>' text.toList with
  | some start, some stop =>
    if start < stop then String.ofList ((text.toList.take stop).drop (start + 1))
    else afterColon text
  | _, _ => afterColon text

inductive Command where
  | hello
  | mail (sender : String)
  | rcpt (recipient : String)
  | data
  | rset
  | noop
  | quit
  | verify
  | unknown
  deriving DecidableEq

def commandOf (line : List UInt8) : Command :=
  let trimmed := commandLine line
  let upper := toAsciiUppercase trimmed
  if startsWith upper "EHLO" || startsWith upper "HELO" then .hello
  else if startsWith upper "MAIL FROM" then .mail (extractAngle trimmed)
  else if startsWith upper "RCPT TO" then .rcpt (extractAngle trimmed)
  else if startsWith upper "DATA" then .data
  else if startsWith upper "RSET" then .rset
  else if startsWith upper "NOOP" then .noop
  else if startsWith upper "QUIT" then .quit
  else if startsWith upper "VRFY" || startsWith upper "EXPN" then .verify
  else .unknown

/-! ### The message -/

/-- The lone dot that ends the message. -/
def isEnd (line : List UInt8) : Bool :=
  line == utf8 ".\r\n" || line == utf8 ".\n" || line == utf8 "."

/-- What the session is reading: commands, or a message, with its bytes so far and whether they are
too many. -/
inductive Reading where
  | commands
  | message (data : List UInt8) (overflow : Bool)
  deriving DecidableEq

/-- A line of the message. A leading `.` is doubled on the wire. -/
def addLine (data : List UInt8) (overflow : Bool) (line : List UInt8) : Reading :=
  let content := if (utf8 "..").isPrefixOf line then line.drop 1 else line
  if overflow then .message data true
  else if maxMessage < data.length + content.length then .message data true
  else .message (data ++ content) false

structure Delivery where
  mailFrom : String
  rcpts : List String
  data : List UInt8
  deriving DecidableEq

/-- How a message ended: with the lone dot, or because the connection was closed. -/
inductive Ending where
  | dot
  | closed
  deriving DecidableEq

/-! ### The session -/

/-- What the session did: it answered a command, or read a message and perhaps delivered it. -/
inductive Exchange where
  | command (command : Command) (reply : String)
  | message (delivered : Option Delivery) (ending : Ending) (reply : String)
  deriving DecidableEq

structure Session where
  mailFrom : String
  rcpts : List String
  reading : Reading

def Session.initial : Session where
  mailFrom := ""
  rcpts := []
  reading := .commands

/-- The reply to a delivery. -/
def deliveryReply (answer : Except String String) : String :=
  match answer with
  | .ok id => "250 2.0.0 OK: queued as " ++ id ++ "\r\n"
  | .error _ => "451 4.3.0 Failed to store message\r\n"

/-- The end of a message: it is delivered unless it is too big. -/
def endMessage (store : Delivery → Except String String) (session : Session) (data : List UInt8)
    (overflow : Bool) (ending : Ending) : Exchange :=
  if overflow then .message none ending "552 5.3.4 Message too big\r\n"
  else
    let delivery : Delivery := { mailFrom := session.mailFrom, rcpts := session.rcpts, data := data }
    .message (some delivery) ending (deliveryReply (store delivery))

/-- A command other than `DATA` and `QUIT`: the session after it, and the reply. -/
def handleCommand (session : Session) (command : Command) : Session × String :=
  match command with
  | .hello => (session, "250 cloudtwin\r\n")
  | .mail sender => ({ session with rcpts := [], mailFrom := sender }, "250 2.1.0 OK\r\n")
  | .rcpt recipient =>
    ({ session with rcpts := session.rcpts ++ [recipient] }, "250 2.1.5 OK\r\n")
  | .rset => ({ session with rcpts := [] }, "250 2.0.0 OK\r\n")
  | .noop => (session, "250 2.0.0 OK\r\n")
  | .verify => (session, "252 2.5.2 Cannot verify\r\n")
  | _ => (session, "500 5.5.2 Command unrecognized\r\n")

/-- **The command loop.** -/
def handleSession (store : Delivery → Except String String) :
    Session → List (List UInt8) → List Exchange
  | session, [] =>
    match session.reading with
    | .commands => []
    | .message data overflow => [endMessage store session data overflow .closed]
  | session, line :: rest =>
    match session.reading with
    | .commands =>
      match commandOf line with
      | .quit => [.command .quit "221 2.0.0 Bye\r\n"]
      | .data =>
        if session.rcpts.isEmpty then
          .command .data "503 5.5.1 RCPT first\r\n" :: handleSession store session rest
        else handleSession store { session with reading := .message [] false } rest
      | command =>
        let (after, reply) := handleCommand session command
        .command command reply :: handleSession store after rest
    | .message data overflow =>
      if isEnd line then
        endMessage store session data overflow .dot ::
          handleSession store { session with rcpts := [], reading := .commands } rest
      else handleSession store { session with reading := addLine data overflow line } rest

/-- Drive one client connection: what it does with the bytes that the client sends. -/
def session (store : Delivery → Except String String) (bytes : List UInt8) : List Exchange :=
  handleSession store Session.initial (linesOf bytes)

end CloudTwin.Mailbox
