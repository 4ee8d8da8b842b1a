import DbPivot.Go.Socket

/-!
# A dialled connection with TLS over it

A client that upgrades a connection to TLS holds two values for it, the TCP connection and the TLS
connection on top, and what it writes through the first goes out as it is. The handshake and the
record layer belong to `crypto/tls`: a handshake fails, or it gives a connection of its own with its
own input and output.
-/

namespace DbPivot.Go

/-- The connection value that a program uses. -/
inductive Layer where
  | plain
  | tls
deriving DecidableEq

/-- A dialled connection: what goes through TCP outside TLS records, the TLS connection once there
is one, and what a handshake is going to give. -/
structure Link where
  plain : Socket
  tls : Option Socket
  handshake : Except GoError Socket

namespace Link

variable {α : Type}

/-- The connection value itself. -/
def socket (link : Link) : Layer → Option Socket
  | .plain => some link.plain
  | .tls => link.tls

/-- A program on one of the two connections. -/
def on (layer : Layer) (program : SocketM α) (link : Link) : GoM GoError α × Link :=
  match layer, link.tls with
  | .plain, _ =>
    ((program.run link.plain).1, { link with plain := (program.run link.plain).2 })
  | .tls, some inner => ((program.run inner).1, { link with tls := some (program.run inner).2 })
  | .tls, none => (.error .panic, link)

/-- `tls.Client(conn, config).Handshake()`. -/
def startTLS (link : Link) : GoM GoError Unit × Link :=
  match link.handshake with
  | .ok inner => (.ok (), { link with tls := some inner })
  | .error error => (fail error, link)

@[simp]
theorem on_plain (program : SocketM α) (link : Link) :
    link.on .plain program =
      ((program.run link.plain).1, { link with plain := (program.run link.plain).2 }) := by
  rcases link with ⟨plain, tls, handshake⟩
  cases tls <;> rfl

/-- Nothing that runs over TLS touches the TCP connection. -/
theorem plain_on_tls (program : SocketM α) (link : Link) :
    (link.on .tls program).2.plain = link.plain := by
  rcases link with ⟨plain, tls, handshake⟩
  cases tls <;> rfl

theorem isSome_tls_on (layer : Layer) (program : SocketM α) (link : Link) :
    (link.on layer program).2.tls.isSome = link.tls.isSome := by
  rcases link with ⟨plain, tls, handshake⟩
  cases layer <;> cases tls <;> rfl

@[simp]
theorem plain_startTLS (link : Link) : link.startTLS.2.plain = link.plain := by
  rcases link with ⟨plain, tls, handshake⟩
  cases handshake <;> rfl

/-- A handshake that succeeds has made a TLS connection. -/
theorem isSome_tls_of_startTLS {link : Link} {result : Unit} (h : link.startTLS.1 = .ok result) :
    link.startTLS.2.tls.isSome := by
  rcases link with ⟨plain, tls, handshake⟩
  cases handshake with
  | ok inner => rfl
  | error error => exact absurd h (fail_ne_ok _ _)

/-- A program on a connection that is there. -/
theorem on_of_socket {link : Link} {layer : Layer} {s : Socket} (hs : link.socket layer = some s)
    (program : SocketM α) :
    (link.on layer program).1 = (program.run s).1 ∧
      (link.on layer program).2.socket layer = some (program.run s).2 := by
  rcases link with ⟨plain, tls, handshake⟩
  cases layer with
  | plain =>
    obtain rfl : plain = s := Option.some.inj hs
    cases tls <;> exact ⟨rfl, rfl⟩
  | tls =>
    obtain rfl : tls = some s := hs
    exact ⟨rfl, rfl⟩

end Link

end DbPivot.Go
