import InterProcessCourier.Asio
import InterProcessCourier.UnixDomainProtocol

/-!
# The client's socket code

`SyncUnixDomainClient`, as programs over the operations of one socket. Sending goes through the
composed `boost::asio::write`; receiving asks `read_some` twice, once for the header and once for
the body, and takes what one call delivers for all there is.
-/

namespace InterProcessCourier

open Interaction

/-- `UnixDomainClientError`. -/
inductive UnixDomainClientError
  | unknownError
  | connectionFailed
  | notEnoughBytesReceived
  | unableToSendMessage
  | unableToReceiveMessage
  deriving DecidableEq

/-- `UnixDomainClientResult<SuccessType>`. -/
abbrev UnixDomainClientResult (SuccessType : Type) :=
  Except (Error UnixDomainClientError) SuccessType

/-- What the client asks of its socket. -/
inductive ClientOp
  /-- `m_socket.connect(endpoint(addr))`. -/
  | connect
  /-- `m_socket.read_some(buffer)`. -/
  | readSome (n : ℕ)
  /-- `m_socket.write_some(buffer)`. -/
  | writeSome (bs : Bytes)
  deriving DecidableEq

/-- The operations of the client with their answers. -/
def clientSignature : Signature where
  Op := ClientOp
  Ans
    | .connect => Unit
    | .readSome n => Chunk n
    | .writeSome bs => Taken bs

/-- Code that runs in the client. -/
abbrev ClientCode := Program clientSignature Exception

/-- One operation of the client. -/
def ClientOp.perform (op : ClientOp) : ClientCode (clientSignature.Ans op) :=
  Program.perform (S := clientSignature) op

namespace SyncUnixDomainClient

/-- `connect`. -/
def connect : ClientCode (UnixDomainClientResult Unit) :=
  catchStdException
    (do
      ClientOp.connect.perform
      return .ok ())
    fun what => return .error ⟨.connectionFailed, what⟩

/-- `sendMessage`. The buffer is built outside the `try`. -/
def sendMessage (message : Bytes) : ClientCode (UnixDomainClientResult Unit) := do
  let payloadBuffer ← Program.ofExcept (frameRequest message)
  catchStdException
    (do
      Asio.write (fun bs => (ClientOp.writeSome bs).perform) payloadBuffer
      return .ok ())
    fun what => return .error ⟨.unableToSendMessage, what⟩

/-- `receiveMessage`. -/
def receiveMessage : ClientCode (UnixDomainClientResult Bytes) :=
  catchStdException
    (do
      let header : Chunk payloadLengthHeaderSize ←
        (ClientOp.readSome payloadLengthHeaderSize).perform
      if header.1.length ≠ payloadLengthHeaderSize then
        return .error ⟨.notEnoughBytesReceived, []⟩
      else
        let messageLength : UInt32 := (loadLE header.1).toUInt32
        let reply : Chunk messageLength.toNat ←
          (ClientOp.readSome messageLength.toNat).perform
        if reply.1.length ≠ messageLength.toNat then
          return .error ⟨.notEnoughBytesReceived, []⟩
        else return .ok reply.1)
    fun what => return .error ⟨.unableToReceiveMessage, what⟩

/-- `sendAndReceiveMessage`. -/
def sendAndReceiveMessage (message : Bytes) : ClientCode (UnixDomainClientResult Bytes) := do
  match ← sendMessage message with
  | .error error => return .error error
  | .ok () => receiveMessage

end SyncUnixDomainClient

end InterProcessCourier
