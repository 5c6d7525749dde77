/-!
# Errors

`ConrogateError`, the one error type of the gateway, with the code and the text every variant is
reported under.
-/

namespace Conrogate

/-- The errors of `conrogate_core` with the texts they carry. -/
inductive ConrogateError where
  | badRequest (msg : String)
  | unauthorized
  | forbidden
  | notFound (what : String)
  | conflict (msg : String)
  | rateLimited
  | payloadTooLarge
  | business (code : Int) (message : String)
  | routeNotFound (path : String)
  | upstreamNotFound (what : String)
  | pluginConfigInvalid (msg : String)
  | pluginNotFound (name : String)
  | pluginRuntime (msg : String)
  | configInvalid (msg : String)
  | configConcurrencyConflict
  | databaseInternal
  | dataMapping (msg : String)
  | migration (msg : String)
  | networkInternal
  | upstreamTimeout
  | upstreamConnectFailed (msg : String)
  | upstreamBadResponse (msg : String)
  | protocolNotSupported (name : String)
  | gatewayInternal
  | circuitBreakerOpen
  | limited
  | retryExhausted (msg : String)
  | overloaded
  | retryBudgetExhausted
  | configLoad (msg : String)
  | init (msg : String)
  | internal (msg : String)
deriving DecidableEq, Repr

abbrev Result := Except ConrogateError

def ConrogateError.code : ConrogateError → Int
  | .badRequest _ => 10001
  | .unauthorized => 10002
  | .forbidden => 10003
  | .notFound _ => 10004
  | .conflict _ => 10005
  | .rateLimited => 10006
  | .payloadTooLarge => 10007
  | .business code _ => code
  | .routeNotFound _ => 20001
  | .upstreamNotFound _ => 20002
  | .pluginConfigInvalid _ => 20003
  | .pluginNotFound _ => 20004
  | .pluginRuntime _ => 20005
  | .configInvalid _ => 20006
  | .configConcurrencyConflict => 20007
  | .databaseInternal => 30001
  | .dataMapping _ => 30002
  | .migration _ => 30003
  | .networkInternal => 40001
  | .upstreamTimeout => 40002
  | .upstreamConnectFailed _ => 40003
  | .upstreamBadResponse _ => 40004
  | .protocolNotSupported _ => 40005
  | .gatewayInternal => 40006
  | .circuitBreakerOpen => 40007
  | .limited => 40008
  | .retryExhausted _ => 40009
  | .overloaded => 40010
  | .retryBudgetExhausted => 40011
  | .configLoad _ => 50001
  | .init _ => 50002
  | .internal _ => 59999

def ConrogateError.isInternal : ConrogateError → Bool
  | .databaseInternal | .dataMapping _ | .migration _ | .networkInternal | .gatewayInternal
  | .configLoad _ | .init _ | .internal _ => true
  | _ => false

def ConrogateError.display : ConrogateError → String
  | .badRequest msg => "参数非法: " ++ msg
  | .unauthorized => "未认证"
  | .forbidden => "无权限"
  | .notFound what => "资源不存在: " ++ what
  | .conflict msg => "资源已存在: " ++ msg
  | .rateLimited => "请求过于频繁"
  | .payloadTooLarge => "请求体过大"
  | .business _ message => "业务处理失败: " ++ message
  | .routeNotFound path => "路由不存在: " ++ path
  | .upstreamNotFound what => "上游不存在: " ++ what
  | .pluginConfigInvalid msg => "插件配置非法: " ++ msg
  | .pluginNotFound name => "插件未找到: " ++ name
  | .pluginRuntime msg => "插件运行时异常: " ++ msg
  | .configInvalid msg => "配置校验失败: " ++ msg
  | .configConcurrencyConflict => "配置发布并发冲突"
  | .databaseInternal => "数据库错误"
  | .dataMapping msg => "数据转换错误: " ++ msg
  | .migration msg => "数据库迁移错误: " ++ msg
  | .networkInternal => "网络/代理内部错误"
  | .upstreamTimeout => "上游连接超时"
  | .upstreamConnectFailed msg => "上游连接失败: " ++ msg
  | .upstreamBadResponse msg => "上游响应异常: " ++ msg
  | .protocolNotSupported name => "协议不支持: " ++ name
  | .gatewayInternal => "网关内部错误"
  | .circuitBreakerOpen => "服务熔断中"
  | .limited => "请求被限流拦截"
  | .retryExhausted msg => "请求重试耗尽: " ++ msg
  | .overloaded => "并发过载保护：服务暂时不可用"
  | .retryBudgetExhausted => "重试预算耗尽"
  | .configLoad msg => "配置加载失败: " ++ msg
  | .init msg => "初始化失败: " ++ msg
  | .internal msg => "内部错误: " ++ msg

end Conrogate
