/-!
What the program tells its operator: one line for each turn that the link or the session takes.
-/

namespace IrcLink

inductive Notice where
  | registered (nick : String)
  | nickInUse (taken next : String)
  | linkClosed (reason : String)
  | oversizeLine (len : Nat)
  | lineDropped (len free : Nat)
  | starting (host : String) (port : Nat)
  | resolveFailed (host : String)
  | connected (peer : String)
  | disconnected (bytesRead bytesWritten : Nat)
  | terminating
  deriving Repr, DecidableEq

def Notice.text : Notice → String
  | registered nick => "INFO registered nick=" ++ nick
  | nickInUse taken next => "WARN nickname in use, retrying taken=" ++ taken ++ " nick=" ++ next
  | linkClosed reason => "WARN server closed the link reason=" ++ reason
  | oversizeLine len => s!"WARN discarding oversize line len={len}"
  | lineDropped len free => s!"WARN write buffer full, dropping outbound line len={len} free={free}"
  | starting host port => "INFO starting host=" ++ host ++ " port=" ++ toString port
  | resolveFailed host => "WARN failed to resolve host host=" ++ host
  | connected peer => "INFO connected to host peer=" ++ peer
  | disconnected bytesRead bytesWritten =>
    s!"INFO disconnected from host bytes_read={bytesRead} bytes_written={bytesWritten}"
  | terminating => "INFO interrupt received, terminating"

end IrcLink
